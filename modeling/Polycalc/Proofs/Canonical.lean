import Polycalc.Proofs.Collect

namespace Polycalc.Polynomial

def coefficient (p : Polynomial) (d : UInt32) : Int64 :=
  ((p.terms.find? (·.degree = d)).map (·.coefficient)).getD 0

lemma coefficientSum_eq_find? {ts : List Term} (h : ts.Pairwise fun s t => t.degree < s.degree)
    (d : UInt32) :
    coefficientSum ts d = ((ts.find? (·.degree = d)).map (·.coefficient)).getD 0 := by
  induction ts with
  | nil => rfl
  | cons t ts ih =>
    obtain ⟨ht, hts⟩ := List.pairwise_cons.mp h
    by_cases hd : t.degree = d
    · subst hd
      rw [coefficientSum_head ht]
      simp
    · have hat : coefficientAt d t = 0 := if_neg hd
      rw [coefficientSum_cons, hat, Int64.zero_add, ih hts]
      simp [hd]

lemma IsCanonical.coefficient_eq {p : Polynomial} (hp : p.IsCanonical) (d : UInt32) :
    p.coefficient d = coefficientSum p.terms d := by
  rw [IsCanonical, descending_iff_pairwise] at hp
  exact (coefficientSum_eq_find? hp d).symm

lemma coefficient_simplify (p : Polynomial) (d : UInt32) :
    p.simplify.coefficient d = coefficientSum p.terms d := by
  rw [p.isCanonical_simplify.coefficient_eq]
  exact coefficientSum_collect p.terms d

lemma eq_simplify_iff (p q : Polynomial) :
    q = p.simplify ↔ q.IsCanonical ∧ ∀ d, q.coefficient d = coefficientSum p.terms d := by
  constructor
  · rintro rfl
    exact ⟨p.isCanonical_simplify, p.coefficient_simplify⟩
  · rintro ⟨hq, h⟩
    apply hq.eq_of_coefficientSum p.isCanonical_simplify
    intro d
    rw [← hq.coefficient_eq, h, simplify, coefficientSum_collect]

lemma coefficientSum_perm {ts us : List Term} (h : ts.Perm us) (d : UInt32) :
    coefficientSum ts d = coefficientSum us d := total_perm h (coefficientAt d)

/-- Simplification chooses the one canonical polynomial that has the same sums of coefficients, all
of them wrapping, and so does not depend on anything else. -/
theorem simplify_is_the_canonical_one (p : Polynomial) :
    (p.simplify.terms.Pairwise fun s t => t.degree < s.degree) ∧
    (∀ t ∈ p.simplify.terms, t.coefficient ≠ 0) ∧
    (∀ d, p.simplify.coefficient d = coefficientSum p.terms d) ∧
    (∀ q : Polynomial, q = p.simplify ↔
      q.IsCanonical ∧ ∀ d, q.coefficient d = coefficientSum p.terms d) ∧
    (∀ q : Polynomial, p.simplify = q.simplify ↔
      ∀ d, coefficientSum p.terms d = coefficientSum q.terms d) ∧
    p.simplify.simplify = p.simplify ∧
    ∀ q : Polynomial, p.terms.Perm q.terms → p.simplify = q.simplify := by
  have hdescending := (descending_iff_pairwise _).mp p.isCanonical_simplify
  refine ⟨hdescending, p.simplify.nonzero, p.coefficient_simplify, p.eq_simplify_iff,
    p.simplify_eq_iff, p.simplify_simplify, ?_⟩
  intro q hperm
  apply (simplify_eq_iff p q).mpr
  intro d
  exact coefficientSum_perm hperm d

theorem simplify_of_vanishing_sum :
    let p := ofTerms [⟨3, Int64.minValue⟩, ⟨1, 5⟩, ⟨3, Int64.minValue⟩]
    let q := ofTerms [⟨1, 5⟩, ⟨3, Int64.minValue⟩, ⟨3, Int64.minValue⟩]
    p.terms.Perm q.terms ∧ p.simplify = q.simplify ∧ q.simplify.terms = [⟨1, 5⟩] := by
  intro p q
  -- The two terms of degree 3 cancel as `-2 ^ 63 - 2 ^ 63` wraps to zero.
  have hperm : p.terms.Perm q.terms := by decide
  exact ⟨hperm, (simplify_is_the_canonical_one p).2.2.2.2.2.2 q hperm, by decide⟩

end Polycalc.Polynomial
