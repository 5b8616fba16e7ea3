import Polycalc.Proofs.Factors
import Polycalc.Proofs.Laws
import Polycalc.Proofs.Rejection

namespace Polycalc.Polynomial

open Grammar (read_eq_error_iff_readText read_eq_ok_iff_readText)
open Traversal

lemma read_eq_ok_iff_readSum {b : String} (hb : ∀ c ∈ b.toList, Shape.IsBodyChar c)
    {p : Polynomial} : read b = .ok p ↔ readSum b.toList = .ok p := by
  rw [read_eq_ok_iff_readText, readText, Text.strip_eq_self hb]
  by_cases hne : b.toList = []
  · rw [hne]
    constructor
    · intro h
      cases h
    · intro h
      cases h
  · rw [Shape.ofText_of_isBody ⟨hne, hb⟩]
    rfl

section

variable {bs : List String} (hne : bs ≠ []) (hbs : ∀ b ∈ bs, ∀ c ∈ b.toList, Shape.IsBodyChar c)
include hne hbs

lemma readText_productText_eq_mapM :
    readText (productText bs).toList =
      (·.foldl (· * ·) one) <$> bs.mapM fun b => readSum b.toList := by
  have hstrip : ∀ b ∈ bs, Text.strip b.toList = b.toList := by
    intro b hb
    exact Text.strip_eq_self (hbs b hb)
  rw [readText_productText hne]
  · rw [List.map_congr_left hstrip, List.mapM_map]
    rfl
  · intro b hb
    rw [hstrip b hb]
    exact hbs b hb

lemma read_productText_eq_ok_iff {q : Polynomial} :
    read (productText bs) = .ok q ↔
      ∃ ps, List.Forall₂ (fun b p => readSum b.toList = .ok p) bs ps ∧ ps.foldl (· * ·) one = q := by
  rw [read_eq_ok_iff_readText, readText_productText_eq_mapM hne hbs, map_eq_ok_iff]
  simp only [mapM_eq_ok_iff]

lemma read_productText_eq_error_iff {e : Error} :
    read (productText bs) = .error e ↔ ∃ before b after f, bs = before ++ b :: after ∧
      (∀ a ∈ before, ∃ p, readSum a.toList = .ok p) ∧ readSum b.toList = .error f ∧
      e = .polynomial f (productText bs) := by
  rw [read_eq_error_iff_readText, readText_productText_eq_mapM hne hbs]
  simp only [map_eq_error_iff, mapM_eq_error_iff]
  constructor
  · rintro ⟨f, he, before, b, after, h, hbefore, hb⟩
    exact ⟨before, b, after, f, h, hbefore, hb, he⟩
  · rintro ⟨before, b, after, f, h, hbefore, hb, he⟩
    exact ⟨f, he, before, b, after, h, hbefore, hb⟩

lemma read_productText_of_forall₂ {ps : List Polynomial}
    (hps : List.Forall₂ (fun b p => read b = .ok p) bs ps) :
    read (productText bs) = .ok (ps.foldl (· * ·) one) := by
  apply (read_productText_eq_ok_iff hne hbs).mpr
  refine ⟨ps, ?_, rfl⟩
  apply ((List.forall₂_and_left _ _).mpr ⟨hbs, hps⟩).imp
  rintro b p ⟨hb, hp⟩
  exact (read_eq_ok_iff_readSum hb).mp hp

lemma read_productText_of_perm {ps : List Polynomial}
    (hps : List.Forall₂ (fun b p => read b = .ok p) bs ps) {cs : List String} (h : bs.Perm cs) :
    read (productText cs) = .ok (ps.foldl (· * ·) one) := by
  obtain ⟨qs, hqs, hperm⟩ := List.perm_comp_forall₂ h.symm hps
  have hcs : ∀ b ∈ cs, ∀ c ∈ b.toList, Shape.IsBodyChar c := fun b hb => hbs b (h.mem_iff.mpr hb)
  have hcsne : cs ≠ [] := by
    rintro rfl
    exact hne h.eq_nil
  rw [read_productText_of_forall₂ hcsne hcs hqs, foldl_mul_perm hperm]

end

/-- Bracketed factors that are all read give the canonical product of what is read, in whatever
order they stand, and a single one its simplified form. If one of them is no sum, the first such
factor decides the failure. -/
theorem read_productText_by_factors {bs : List String} (hne : bs ≠ [])
    (hbs : ∀ b ∈ bs, ∀ c ∈ b.toList, Shape.IsBodyChar c) :
    (∀ ps, List.Forall₂ (fun b p => read b = .ok p) bs ps →
      let product := ps.foldl (· * ·) one
      read (productText bs) = .ok product ∧ product.IsCanonical ∧
      (∀ cs, bs.Perm cs → read (productText cs) = .ok product) ∧
      ∀ p, ps = [p] → product = p.simplify) ∧
    ((∃ b ∈ bs, ∀ p, readSum b.toList ≠ .ok p) → ∃ e, read (productText bs) = .error e) ∧
    ∀ e, read (productText bs) = .error e ↔ ∃ before b after f, bs = before ++ b :: after ∧
      (∀ a ∈ before, ∃ p, readSum a.toList = .ok p) ∧ readSum b.toList = .error f ∧
      e = .polynomial f (productText bs) := by
  refine ⟨?_, ?_, fun e => read_productText_eq_error_iff hne hbs⟩
  · intro ps hps product
    refine ⟨read_productText_of_forall₂ hne hbs hps, isCanonical_foldl_mul isCanonical_one ps,
      fun cs => read_productText_of_perm hne hbs hps, ?_⟩
    rintro p rfl
    exact one_mul p
  · rintro ⟨b, hb, hrejected⟩
    cases hread : read (productText bs) with
    | error e => exact ⟨e, rfl⟩
    | ok q =>
      obtain ⟨ps, hps, -⟩ := (read_productText_eq_ok_iff hne hbs).mp hread
      obtain ⟨p, hp⟩ := forall_left_of_forall₂ (fun b p hp => Exists.intro p hp) hps b hb
      exact (hrejected p hp).elim

theorem read_productText_of_swapped_and_rejected_factors :
    (∀ b ∈ ["2*x-1", "x^2+x"], ∀ c ∈ b.toList, Shape.IsBodyChar c) ∧
    read "(2*x-1)*(x^2+x)" = read "(x^2+x)*(2*x-1)" ∧
    read "(4194304*x)*(4194304)*(4194304)*(2x)*(+)" = .error (.polynomial
      (.about .misplacedTimes "+2x".toList) "(4194304*x)*(4194304)*(4194304)*(2x)*(+)") := by
  have hbody : ∀ b ∈ ["2*x-1", "x^2+x"], Shape.IsBody b.toList := by decide
  have hps : List.Forall₂ (fun b p => read b = .ok p) ["2*x-1", "x^2+x"]
      [ofTerms [⟨1, 2⟩, ⟨0, -1⟩], ofTerms [⟨2, 1⟩, ⟨1, 1⟩]] :=
    .cons (by decide) (.cons (by decide) .nil)
  have hbs := fun b hb => (hbody b hb).2
  obtain ⟨hread, -, hperm, -⟩ := (read_productText_by_factors (List.cons_ne_nil _ _) hbs).1 _ hps
  refine ⟨hbs, hread.trans (hperm ["x^2+x", "2*x-1"] (.swap _ _ _)).symm, ?_⟩
  -- the factors in front of the rejected one multiply to zero
  have hcs : ∀ b ∈ ["4194304*x", "4194304", "4194304", "2x", "+"], Shape.IsBody b.toList := by
    decide
  apply ((read_productText_by_factors (List.cons_ne_nil _ _) fun b hb => (hcs b hb).2).2.2 _).mpr
  refine ⟨["4194304*x", "4194304", "4194304"], "2x", ["+"], _, rfl, ?_, by decide, rfl⟩
  simp only [List.forall_mem_cons]
  exact ⟨⟨ofTerms [⟨1, 4194304⟩], by decide⟩, ⟨ofTerms [⟨0, 4194304⟩], by decide⟩,
    ⟨ofTerms [⟨0, 4194304⟩], by decide⟩, nofun⟩

end Polycalc.Polynomial
