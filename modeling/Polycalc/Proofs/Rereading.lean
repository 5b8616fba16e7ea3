import Polycalc.Proofs.Answer
import Polycalc.Proofs.RoundTrip

namespace Polycalc.Polynomial

lemma exists_read_render_error {p : Polynomial} (h : ∃ t ∈ p.terms, ¬ t.IsShort) :
    ∃ f, read p.render = .error (.polynomial f p.render) ∧
      readCanonical p.render = .error (.polynomial f p.render) := by
  obtain ⟨t, ht, hlong⟩ := h
  have hne : p.terms ≠ [] := List.ne_nil_of_mem ht
  cases hf : p.terms.find? (¬ ·.IsShort) with
  | none =>
    have hshort := List.find?_eq_none.mp hf t ht
    simp [hlong] at hshort
  | some u =>
    refine ⟨u.excess, ?_, ?_⟩
    · rw [read_render hne, hf]
    · rw [readCanonical_render_eq, hf]

lemma find?_isShort_eq_none {ts : List Term} (h : ∀ t ∈ ts, t.IsShort) :
    ts.find? (¬ ·.IsShort) = none := by simpa using h

lemma read_render_of_isShort {p : Polynomial} (hne : p.terms ≠ []) (h : ∀ t ∈ p.terms, t.IsShort) :
    read p.render = .ok p := by
  rw [read_render hne, find?_isShort_eq_none h]

lemma readCanonical_render_of_isShort {p : Polynomial} (h : ∀ t ∈ p.terms, t.IsShort) :
    readCanonical p.render = .ok p := by
  rw [readCanonical_render_eq, find?_isShort_eq_none h]

lemma terms_ne_nil_of_render {p : Polynomial} (h : p.render ≠ "0") : p.terms ≠ [] := by
  intro hnil
  exact h (render_of_nil hnil)

lemma value_render {p : Polynomial} (h : ∀ t ∈ p.terms, t.IsShort) (x : Int64) :
    Answer.value p.render x = .ok (p.evaluate x) := by
  rw [Answer.value, readCanonical_render_of_isShort h]
  rfl

lemma simplified_zero :
    Answer.simplified "0" = .error (.polynomial (.about .badCoefficient "+0".toList) "0") := by
  decide

/-- The canonical text can be used for the text itself up to nine digits, and beyond them it is
rejected as a polynomial and given no value. -/
theorem canonical_text_stands_in {raw : String} {p : Polynomial} (h : read raw = .ok p) :
    let text := p.simplify.render
    Answer.simplified raw = .ok text ∧
    ((∀ t ∈ p.simplify.terms, t.IsShort) →
      (∀ x, Answer.value text x = .ok (p.evaluate x) ∧ Answer.value raw x = .ok (p.evaluate x)) ∧
      (text ≠ "0" → Answer.simplified text = .ok text) ∧
      (text = "0" → Answer.simplified text =
        .error (.polynomial (.about .badCoefficient "+0".toList) text))) ∧
    ((∃ t ∈ p.simplify.terms, ¬ t.IsShort) →
      ∃ f, Answer.simplified text = .error (.polynomial f text) ∧
        ∀ x, Answer.value text x = .error (.polynomial f text)) := by
  intro text
  refine ⟨Answer.simplified_of_read h, ?_, ?_⟩
  · intro hshort
    refine ⟨?_, ?_, ?_⟩
    · intro x
      have hvalue := value_render hshort x
      rw [evaluate_simplify] at hvalue
      exact ⟨hvalue, Answer.value_of_read h x⟩
    · intro htext
      have hread := read_render_of_isShort (terms_ne_nil_of_render htext) hshort
      rw [Answer.simplified_of_read hread, simplify_simplify]
    · intro htext
      rw [htext]
      exact simplified_zero
  · intro hlong
    obtain ⟨f, hread, hcanonical⟩ := exists_read_render_error hlong
    refine ⟨f, ?_, ?_⟩
    · rw [Answer.simplified, hread]
      rfl
    · intro x
      rw [Answer.value, hcanonical]
      rfl

theorem canonical_text_stands_in_both_sides :
    (∀ x, Answer.value "3*x^2 - 5" x = Answer.value "2*x^2 - 5 + x^2" x) ∧
    Answer.simplified "3*x^2 - 5" = .ok "3*x^2 - 5" ∧
    Answer.simplified "x - x" = .ok "0" ∧
    Answer.simplified "0" = .error (.polynomial (.about .badCoefficient "+0".toList) "0") ∧
    Answer.simplified "(100000*x)*(100000*x)" = .ok "10000000000*x^2" ∧
    ∃ f, Answer.simplified "10000000000*x^2" = .error (.polynomial f "10000000000*x^2") := by
  have hshort : read "2*x^2 - 5 + x^2" = .ok (ofTerms [⟨2, 2⟩, ⟨0, -5⟩, ⟨2, 1⟩]) := by decide
  have hzero : read "x - x" = .ok (ofTerms [⟨1, 1⟩, ⟨1, -1⟩]) := by decide
  have hlong : read "(100000*x)*(100000*x)" = .ok (ofTerms [⟨2, 10000000000⟩]) := by decide
  have hshort := canonical_text_stands_in hshort
  have hzero := canonical_text_stands_in hzero
  have hlong := canonical_text_stands_in hlong
  obtain ⟨hvalue, htext, -⟩ := hshort.2.1 (by decide)
  obtain ⟨f, hf, -⟩ := hlong.2.2 (by decide)
  refine ⟨?_, htext (by decide), hzero.1, ?_, hlong.1, f, hf⟩
  · intro x
    exact (hvalue x).1.trans (hvalue x).2.symm
  · exact (hzero.2.1 (by decide)).2.2 (by decide)

end Polycalc.Polynomial
