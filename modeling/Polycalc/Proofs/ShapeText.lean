import Polycalc.Proofs.Factors

namespace Polycalc.Shape

open Polycalc.Polynomial (productText toList_productText)

structure IsProductText (fs : List (List Char)) (s : String) : Prop where
  ne_nil : fs ≠ []
  isBodyChar : ∀ f ∈ fs, ∀ c ∈ f, IsBodyChar c
  eq_productText : s = productText (fs.map String.ofList)

lemma eq_productText_iff {fs : List (List Char)} (hne : fs ≠ []) {s : String} :
    s = productText (fs.map String.ofList) ↔ s.toList = bracketed fs := by
  have hne' : fs.map String.ofList ≠ [] := by simpa using hne
  rw [← String.toList_inj, toList_productText hne', List.map_map]
  simp [Function.comp_def]

lemma ofText_eq_product_iff_isProductText {fs : List (List Char)} {s : String} :
    ofText s.toList = .ok (.product fs) ↔ IsProductText fs s := by
  rw [ofText_eq_product_iff]
  constructor
  · rintro ⟨hne, hs, hfs⟩
    exact ⟨hne, hfs, (eq_productText_iff hne).mpr hs⟩
  · rintro ⟨hne, hfs, hs⟩
    exact ⟨hne, (eq_productText_iff hne).mp hs, hfs⟩

lemma IsProductText.eq {fs gs : List (List Char)} {s : String} (hf : IsProductText fs s)
    (hg : IsProductText gs s) : fs = gs := by
  rw [← ofText_eq_product_iff_isProductText] at hf hg
  rw [hf] at hg
  cases hg
  rfl

/-- A text is a sum for its characters alone and is kept whole; it is a product of the factors that
it joins, which it determines; any other text is unsupported. -/
theorem ofText_recognises_written_shapes (s : String) :
    (∀ body, ofText s.toList = .ok (.sum body) ↔
      (s ≠ "" ∧ ∀ c ∈ s.toList, IsBodyChar c) ∧ body = s.toList) ∧
    (∀ fs, ofText s.toList = .ok (.product fs) ↔ IsProductText fs s) ∧
    (∀ f, ofText s.toList = .error f ↔ f = ⟨.unsupportedPolynomial, []⟩ ∧
      ¬ (s ≠ "" ∧ ∀ c ∈ s.toList, IsBodyChar c) ∧ ∀ fs, ¬ IsProductText fs s) ∧
    ∀ fs gs, IsProductText fs s → IsProductText gs s → fs = gs := by
  have hbody : IsBody s.toList ↔ s ≠ "" ∧ ∀ c ∈ s.toList, IsBodyChar c := by simp [IsBody]
  refine ⟨?_, fun fs => ofText_eq_product_iff_isProductText, ?_, fun fs gs => IsProductText.eq⟩
  · intro body
    rw [ofText_eq_sum_iff, hbody]
  · intro f
    rw [ofText_eq_error_iff, hbody]
    simp only [ne_eq, ofText_eq_product_iff_isProductText]
    rfl

end Polycalc.Shape
