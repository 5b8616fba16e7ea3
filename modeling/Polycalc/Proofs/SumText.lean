import Polycalc.Proofs.FactorOrder

namespace Polycalc.Polynomial

open Run (withSign)
open Traversal

def sumText (a b : String) : String :=
  if b.toList.head? = some '-' then a ++ b else a ++ "+" ++ b

lemma toList_sumText (a b : String) : (sumText a b).toList = a.toList ++ withSign b.toList := by
  rw [sumText]
  split_ifs with h
  · obtain ⟨r, hr⟩ := List.head?_eq_some_iff.mp h
    rw [String.toList_append, hr, withSign]
  · simp [Run.withSign_of_ne h]

lemma ofTerms_append (ts us : List Term) : ofTerms (ts ++ us) = ofTerms ts ++ ofTerms us := by
  ext1
  simp [terms_ofTerms]

lemma evaluate_append (p q : Polynomial) (x : Int64) :
    (p ++ q).evaluate x = p.evaluate x + q.evaluate x := by
  simp [evaluate_eq_total]

lemma readSum_append {cs : List Char} (h : cs ≠ []) (ds : List Char) :
    readSum (cs ++ withSign ds) = do
      let p ← readSum cs
      let q ← readSum ds
      return p ++ q := by
  rw [readSum, readSum, readSum, Run.split_withSign_append h, List.mapM_append]
  cases (Run.split (withSign cs)).mapM Term.read with
  | error e => rfl
  | ok ts =>
    cases (Run.split (withSign ds)).mapM Term.read with
    | error e => rfl
    | ok us => exact congrArg Except.ok (ofTerms_append ts us)

lemma readSum_append_eq_ok_iff {cs ds : List Char} (h : cs ≠ []) {r : Polynomial} :
    readSum (cs ++ withSign ds) = .ok r ↔
      ∃ p q, readSum cs = .ok p ∧ readSum ds = .ok q ∧ p ++ q = r := by
  rw [readSum_append h]
  simp only [bind_eq_ok_iff]
  constructor
  · rintro ⟨p, hp, q, hq, hr⟩
    exact ⟨p, q, hp, hq, Except.ok.inj hr⟩
  · rintro ⟨p, q, hp, hq, rfl⟩
    exact ⟨p, hp, q, hq, rfl⟩

lemma readSum_append_eq_error_iff {cs ds : List Char} (h : cs ≠ []) {f : Failure} :
    readSum (cs ++ withSign ds) = .error f ↔
      readSum cs = .error f ∨ (∃ p, readSum cs = .ok p) ∧ readSum ds = .error f := by
  rw [readSum_append h]
  cases readSum cs with
  | error e => simp [bind, Except.bind]
  | ok p => cases readSum ds <;> simp [bind, Except.bind, pure, Except.pure]

lemma read_of_readSum {b : String} {p : Polynomial} (h : readSum b.toList = .ok p) :
    read b = .ok p := by
  apply (read_eq_ok_iff_readSum _).mpr h
  exact (Grammar.readSum_eq_ok_iff.mp h).isBody.2

lemma value_of_readSum {b : String} {p : Polynomial} (h : readSum b.toList = .ok p) (x : Int64) :
    Answer.value b x = .ok (p.evaluate x) := Answer.value_of_read (read_of_readSum h) x

/-- Two sums in one text are read term by term as the two are alone, whatever stands at the seam,
and the failure of the first comes before that of the second. -/
theorem readSum_sumText_by_parts {a : String} (ha : a ≠ "") (b : String) :
    ((∃ r, readSum (sumText a b).toList = .ok r) ↔
      (∃ p, readSum a.toList = .ok p) ∧ ∃ q, readSum b.toList = .ok q) ∧
    (∀ p q, readSum a.toList = .ok p → readSum b.toList = .ok q →
      ∃ r, readSum (sumText a b).toList = .ok r ∧ r.terms = p.terms ++ q.terms ∧
        ∀ x, ∃ v w, Answer.value a x = .ok v ∧ Answer.value b x = .ok w ∧
          Answer.value (sumText a b) x = .ok (v + w)) ∧
    ∀ f, readSum (sumText a b).toList = .error f ↔
      readSum a.toList = .error f ∨ (∃ p, readSum a.toList = .ok p) ∧ readSum b.toList = .error f := by
  have hne : a.toList ≠ [] := by simpa using ha
  refine ⟨?_, ?_, ?_⟩
  · simp only [toList_sumText, readSum_append_eq_ok_iff hne]
    constructor
    · rintro ⟨_, p, q, hp, hq, -⟩
      exact ⟨⟨p, hp⟩, q, hq⟩
    · rintro ⟨⟨p, hp⟩, q, hq⟩
      exact ⟨p ++ q, p, q, hp, hq, rfl⟩
  · intro p q hp hq
    have hr : readSum (sumText a b).toList = .ok (p ++ q) := by
      rw [toList_sumText]
      exact (readSum_append_eq_ok_iff hne).mpr ⟨p, q, hp, hq, rfl⟩
    refine ⟨p ++ q, hr, terms_append p q, ?_⟩
    intro x
    refine ⟨_, _, value_of_readSum hp x, value_of_readSum hq x, ?_⟩
    rw [value_of_readSum hr, evaluate_append]
  · intro f
    rw [toList_sumText]
    exact readSum_append_eq_error_iff hne

theorem readSum_sumText_of_signs_at_seam :
    ("x^2-3" ≠ "" ∧ ∀ x, ∃ v w, Answer.value "x^2-3" x = .ok v ∧ Answer.value "-2*x" x = .ok w ∧
      Answer.value "x^2-3-2*x" x = .ok (v + w)) ∧
    readSum "2*x-+5x".toList = .error (.about .badCoefficient ['-']) ∧
    readSum "2*x++5x".toList = .error (.about .badCoefficient ['+']) := by
  have hp : readSum "x^2-3".toList = .ok (ofTerms [⟨2, 1⟩, ⟨0, -3⟩]) := by decide
  have hq : readSum "-2*x".toList = .ok (ofTerms [⟨1, -2⟩]) := by decide
  obtain ⟨-, hvalue, -⟩ := readSum_sumText_by_parts (by decide : "x^2-3" ≠ "") "-2*x"
  obtain ⟨_, -, -, hvalue⟩ := hvalue _ _ hp hq
  -- both parts are rejected, first for the sign in the first, then for the one in the second
  have hfirst := (readSum_sumText_by_parts (by decide : "2*x-" ≠ "") "5x").2.2
  have hsecond := (readSum_sumText_by_parts (by decide : "2*x" ≠ "") "+5x").2.2
  refine ⟨⟨by decide, hvalue⟩, (hfirst _).mpr (Or.inl (by decide)), ?_⟩
  exact (hsecond _).mpr (Or.inr ⟨⟨ofTerms [⟨1, 2⟩], by decide⟩, by decide⟩)

end Polycalc.Polynomial
