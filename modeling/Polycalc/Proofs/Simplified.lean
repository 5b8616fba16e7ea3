import Polycalc.Proofs.Grammar.Product

namespace Polycalc.Polynomial

lemma descending_iff_neighbours (ts : List Term) :
    Descending ts ↔ ∀ pair ∈ ts.zip ts.tail, pair.2.degree < pair.1.degree := by
  induction ts with
  | nil => simp [Descending]
  | cons s r ih =>
    cases r with
    | nil => simp [Descending]
    | cons t r =>
      rw [Descending, ih]
      simp only [List.tail_cons, List.zip_cons_cons, List.forall_mem_cons]

lemma isCanonical_iff_simplify_eq (p : Polynomial) : p.IsCanonical ↔ p.simplify = p := by
  constructor
  · exact IsCanonical.simplify_eq
  · intro h
    rw [← h]
    exact p.isCanonical_simplify

lemma not_mem_of_isSum {cs : List Char} {ts : List Term} (h : Grammar.IsSum (Text.strip cs) ts) :
    '(' ∉ cs := by
  intro hopen
  have hkept : '(' ∈ Text.strip cs := List.mem_filter.mpr ⟨hopen, by decide⟩
  exact Shape.not_isBodyChar_open (h.isBody.2 '(' hkept)

lemma isCanonical_of_read {raw : String} {p : Polynomial} (h : read raw = .ok p)
    (hopen : '(' ∈ raw.toList) : p.IsCanonical := by
  rw [Grammar.read_eq_ok_iff_readText] at h
  rcases Grammar.isSum_or_isProduct_of_readText h with ⟨ts, hsum⟩ | ⟨tss, hproduct⟩
  · exact absurd hopen (not_mem_of_isSum hsum)
  · obtain ⟨q, hq, hqs⟩ := Grammar.readText_of_isProduct hproduct
    rw [h] at hq
    cases hq
    exact hqs.canonical

/-- A polynomial passes for canonical, with no zero term and each term of a higher degree than the
next, exactly if simplifying it gives back the same terms; and so does all that is read from a text
with brackets. -/
theorem isCanonical_iff_same_terms (p : Polynomial) :
    (p.IsCanonical ↔ (∀ t ∈ p.terms, t.coefficient ≠ 0) ∧
      ∀ pair ∈ p.terms.zip p.terms.tail, pair.2.degree < pair.1.degree) ∧
    (p.IsCanonical ↔ p.simplify.terms = p.terms) ∧
    ∀ raw, '(' ∈ raw.toList → read raw = .ok p → p.IsCanonical ∧ p.simplify.terms = p.terms := by
  have hsame : p.IsCanonical ↔ p.simplify.terms = p.terms := by
    rw [isCanonical_iff_simplify_eq]
    exact ⟨congrArg terms, ext⟩
  refine ⟨?_, hsame, ?_⟩
  · rw [IsCanonical, descending_iff_neighbours, and_iff_right]
    exact p.nonzero
  · intro raw hopen hread
    have hp := isCanonical_of_read hread hopen
    exact ⟨hp, hsame.mp hp⟩

end Polycalc.Polynomial
