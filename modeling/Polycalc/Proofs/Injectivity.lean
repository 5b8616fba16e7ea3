import Mathlib.Logic.Function.Basic
import Polycalc.Proofs.Answer

namespace Polycalc

namespace Text

lemma decimal_injective : Function.Injective decimal := by
  intro m n h
  rw [← ofDigitChars_decimal m, ← ofDigitChars_decimal n, h]

end Text

namespace Term

def beforePower (m : ℕ) : List Char := if m = 1 then [] else Text.decimal m ++ ['*']

lemma renderUnsigned_eq {t : Term} (hd : t.degree ≠ 0) :
    t.renderUnsigned = beforePower t.magnitude ++ 'x' :: afterPower t.degree := by
  rw [renderUnsigned, beforePower, if_neg hd, renderPower_eq hd]
  split_ifs <;> simp

lemma renderUnsigned_constant {t : Term} (hd : t.degree = 0) :
    t.renderUnsigned = Text.decimal t.magnitude := by rw [renderUnsigned, if_pos hd]

lemma not_mem_beforePower (m : ℕ) : 'x' ∉ beforePower m := by
  have hx : 'x' ∉ Text.decimal m := Text.not_mem_decimal (by decide) m
  rw [beforePower]
  split_ifs <;> simp [hx]

lemma not_mem_afterPower (d : UInt32) : 'x' ∉ afterPower d := by
  have hx : 'x' ∉ Text.decimal d.toNat := Text.not_mem_decimal (by decide) d.toNat
  rw [afterPower]
  split_ifs <;> simp [hx]

lemma beforePower_injective : Function.Injective beforePower := by
  intro m n h
  rw [beforePower, beforePower] at h
  split_ifs at h with hm hn hn
  · exact hm.trans hn.symm
  · simp at h
  · simp at h
  · apply Text.decimal_injective
    exact List.append_cancel_right h

lemma afterPower_injective : Function.Injective afterPower := by
  intro d e h
  rw [afterPower, afterPower] at h
  split_ifs at h with hd he he
  · exact hd.trans he.symm
  · apply UInt32.toNat_inj.mp
    apply Text.decimal_injective
    exact (List.cons.inj h).2

lemma mem_renderUnsigned_iff (t : Term) : 'x' ∈ t.renderUnsigned ↔ t.degree ≠ 0 := by
  by_cases hd : t.degree = 0
  · simp [renderUnsigned_constant hd, Text.not_mem_decimal, hd]
  · simp [renderUnsigned_eq hd, hd]

lemma eq_of_renderUnsigned {s t : Term} (h : s.renderUnsigned = t.renderUnsigned) :
    s.magnitude = t.magnitude ∧ s.degree = t.degree := by
  -- an `x` is written exactly when there is a power, and it divides the two numbers
  have hx : s.degree ≠ 0 ↔ t.degree ≠ 0 := by
    rw [← mem_renderUnsigned_iff, ← mem_renderUnsigned_iff, h]
  by_cases hs : s.degree = 0
  · have ht : t.degree = 0 := by
      by_contra ht
      exact hx.mpr ht hs
    rw [renderUnsigned_constant hs, renderUnsigned_constant ht] at h
    exact ⟨Text.decimal_injective h, hs.trans ht.symm⟩
  · have ht := hx.mp hs
    rw [renderUnsigned_eq hs, renderUnsigned_eq ht,
      List.append_cons_inj_of_notMem (not_mem_beforePower _) (not_mem_afterPower _)] at h
    exact ⟨beforePower_injective h.1, afterPower_injective h.2.2⟩

theorem run_injective : Function.Injective run := by
  intro s t h
  obtain ⟨hsign, hunsigned⟩ := List.cons.inj h
  obtain ⟨hm, hd⟩ := eq_of_renderUnsigned hunsigned
  have hc : s.coefficient = t.coefficient := by
    rw [← s.signed_magnitude, ← t.signed_magnitude, hsign, hm]
  exact congrArg₂ Term.mk hd hc

end Term

namespace Polynomial

lemma renderTerms_ne_zero {t : Term} (hz : ¬ t.IsZero) (ts : List Term) :
    renderTerms (t :: ts) ≠ ['0'] := by
  intro h
  apply trim_renderTerms_ne hz ts
  rw [h]
  rfl

lemma eq_of_renderTerms {ts us : List Term} (hts : ∀ t ∈ ts, ¬ t.IsZero)
    (hus : ∀ u ∈ us, ¬ u.IsZero) (h : renderTerms ts = renderTerms us) : ts = us := by
  cases ts with
  | nil =>
    cases us with
    | nil => rfl
    | cons u us => exact (renderTerms_ne_zero (hus u List.mem_cons_self) us h.symm).elim
  | cons t ts =>
    cases us with
    | nil => exact (renderTerms_ne_zero (hts t List.mem_cons_self) ts h).elim
    | cons u us =>
      have ht := split_strip_renderTerms (hts t List.mem_cons_self) ts
      have hu := split_strip_renderTerms (hus u List.mem_cons_self) us
      rw [h, hu] at ht
      exact List.map_injective_iff.mpr Term.run_injective ht.symm

theorem render_injective : Function.Injective render := by
  intro p q h
  apply Polynomial.ext
  apply eq_of_renderTerms p.nonzero q.nonzero
  exact String.ofList_injective h

/-- Equality of polynomials is equality of their canonical texts, without any bound on the
coefficients and degrees. -/
theorem simplified_eq_iff :
    Function.Injective render ∧
    (∀ p q : Polynomial, p.simplify.render = q.simplify.render ↔
      ∀ d, coefficientSum p.terms d = coefficientSum q.terms d) ∧
    ∀ s t p q, read s = .ok p → read t = .ok q →
      (Answer.simplified s = Answer.simplified t ↔
        ∀ d, coefficientSum p.terms d = coefficientSum q.terms d) := by
  have hrender : ∀ p q : Polynomial, p.simplify.render = q.simplify.render ↔
      ∀ d, coefficientSum p.terms d = coefficientSum q.terms d := by
    intro p q
    rw [render_injective.eq_iff, simplify_eq_iff]
  refine ⟨render_injective, hrender, ?_⟩
  intro s t p q hs ht
  rw [Answer.simplified_of_read hs, Answer.simplified_of_read ht, Except.ok.injEq, hrender]

theorem simplified_eq_of_swapped_factors :
    let p : Polynomial := ofTerms [⟨2, 10000000000⟩, ⟨1, -20000⟩]
    (read "(500000*x - 1)*(20000*x)" = .ok p ∧ read "(20000*x)*(500000*x - 1)" = .ok p) ∧
    Answer.simplified "(500000*x - 1)*(20000*x)" =
      Answer.simplified "(20000*x)*(500000*x - 1)" := by
  have hleft : read "(500000*x - 1)*(20000*x)" =
      .ok (ofTerms [⟨2, 10000000000⟩, ⟨1, -20000⟩]) := by decide
  have hright : read "(20000*x)*(500000*x - 1)" =
      .ok (ofTerms [⟨2, 10000000000⟩, ⟨1, -20000⟩]) := by decide
  exact ⟨⟨hleft, hright⟩, (simplified_eq_iff.2.2 _ _ _ _ hleft hright).mpr fun d => rfl⟩

end Polynomial

end Polycalc
