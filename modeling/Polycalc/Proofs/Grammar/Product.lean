import Polycalc.Proofs.Grammar.Sum
import Polycalc.Proofs.Product
import Polycalc.Proofs.Shape

namespace Polycalc.Grammar

open Polycalc.Polynomial (coefficientSum expand readSum readProduct)
open Run (IsSign)
open Shape (bracketed closing)
open Traversal

inductive IsProduct : List Char → List (List Term) → Prop
  | single {cs : List Char} {ts : List Term} : IsSum cs ts → IsProduct ('(' :: (cs ++ [')'])) [ts]
  | times {cs r : List Char} {ts : List Term} {tss : List (List Term)} :
      IsSum cs ts → IsProduct r tss → IsProduct ('(' :: (cs ++ ')' :: '*' :: r)) (ts :: tss)

lemma isProduct_iff_bracketed {cs : List Char} {tss : List (List Term)} :
    IsProduct cs tss ↔ ∃ fs, fs ≠ [] ∧ bracketed fs = cs ∧ List.Forall₂ IsSum fs tss := by
  constructor
  · intro h
    induction h with
    | @single cs ts hs => exact ⟨[cs], List.cons_ne_nil _ _, rfl, .cons hs .nil⟩
    | @times cs r ts tss hs _ ih =>
      obtain ⟨fs, hne, rfl, h⟩ := ih
      obtain ⟨f, fs, rfl⟩ := List.exists_cons_of_ne_nil hne
      exact ⟨cs :: f :: fs, List.cons_ne_nil _ _, rfl, .cons hs h⟩
  · rintro ⟨fs, hne, rfl, h⟩
    induction h with
    | nil => exact (hne rfl).elim
    | @cons f ts fs tss hs h ih =>
      cases h with
      | nil => exact .single hs
      | cons hs' h => exact .times hs (ih (List.cons_ne_nil _ _))

lemma Tail.isBodyChar {cs : List Char} {ts : List Term} (h : Tail cs ts) :
    ∀ c ∈ cs, Shape.IsBodyChar c := by
  induction h with
  | nil => exact nofun
  | cons hr _ ih =>
    obtain ⟨hs, hm, _⟩ := hr
    refine List.forall_mem_append.mpr ⟨List.forall_mem_cons.mpr ⟨?_, ?_⟩, ih⟩
    · rcases hs with rfl | rfl <;> decide
    · exact fun c hc => (hm.chars c hc).isBodyChar

lemma IsSum.isBody {cs : List Char} {ts : List Term} (h : IsSum cs ts) : Shape.IsBody cs := by
  have hminus : Shape.IsBodyChar '-' := by decide
  rcases h with ⟨hm, _, htail⟩ | ⟨hm, _, htail⟩
  · refine ⟨List.append_ne_nil_of_left_ne_nil hm.ne_nil _, ?_⟩
    exact List.forall_mem_append.mpr ⟨fun c hc => (hm.chars c hc).isBodyChar, htail.isBodyChar⟩
  · refine ⟨List.cons_ne_nil _ _, List.forall_mem_cons.mpr ⟨hminus, ?_⟩⟩
    exact List.forall_mem_append.mpr ⟨fun c hc => (hm.chars c hc).isBodyChar, htail.isBodyChar⟩

lemma foldlM_mul_eq (fs : List (List Char)) (p : Polynomial) :
    fs.foldlM (fun p body => (p * ·) <$> readSum body) p =
      (·.foldl (· * ·) p) <$> fs.mapM readSum := by
  induction fs generalizing p with
  | nil => rfl
  | cons f fs ih =>
    rw [List.foldlM_cons]
    cases hf : readSum f with
    | error e => rw [mapM_cons_error hf]; rfl
    | ok q =>
      rw [mapM_cons_ok hf]
      apply (ih (p * q)).trans
      cases fs.mapM readSum <;> rfl

lemma foldlM_mul_eq_ok_iff {fs : List (List Char)} {p q : Polynomial} :
    fs.foldlM (fun p body => (p * ·) <$> readSum body) p = .ok q ↔
      ∃ ps, List.Forall₂ (fun f p => readSum f = .ok p) fs ps ∧ ps.foldl (· * ·) p = q := by
  simp only [foldlM_mul_eq, map_eq_ok_iff, mapM_eq_ok_iff]

structure IsProductOf (tss : List (List Term)) (p : Polynomial) : Prop where
  canonical : p.IsCanonical
  coefficientSum : ∀ d, coefficientSum p.terms d = coefficientSum (expand tss) d

lemma IsProductOf.eq {tss : List (List Term)} {p q : Polynomial} (hp : IsProductOf tss p)
    (hq : IsProductOf tss q) : p = q :=
  hp.canonical.eq_of_coefficientSum hq.canonical fun d =>
    (hp.coefficientSum d).trans (hq.coefficientSum d).symm

lemma isProductOf_foldl (ps : List Polynomial) :
    IsProductOf (ps.map Polynomial.terms) (ps.foldl (· * ·) .one) := by
  refine ⟨Polynomial.isCanonical_foldl_mul Polynomial.isCanonical_one ps, ?_⟩
  intro d
  have h := Polynomial.total_foldl_mul (Polynomial.isAdditive_coefficientAt d) .one ps
  have hone : Polynomial.products Polynomial.one.terms (expand (ps.map Polynomial.terms)) =
      expand (ps.map Polynomial.terms) := Polynomial.products_one _
  rw [hone] at h
  exact h

lemma forall₂_isSum_of_readSum {fs : List (List Char)} {ps : List Polynomial}
    (h : List.Forall₂ (fun f p => readSum f = .ok p) fs ps) :
    List.Forall₂ IsSum fs (ps.map Polynomial.terms) := by
  rw [List.forall₂_map_right_iff]
  exact h.imp fun _ _ => readSum_eq_ok_iff.mp

lemma IsSum.readSum {cs : List Char} {ts : List Term} (h : IsSum cs ts) :
    ∃ p, readSum cs = .ok p ∧ p.terms = ts := by
  have hz := not_isZero_of_forall₂ (tail_withSign_iff.mp (isSum_iff_tail.mp h))
  exact ⟨⟨ts, hz⟩, readSum_eq_ok_iff.mpr h, rfl⟩

lemma readSum_of_forall₂_isSum {fs : List (List Char)} {tss : List (List Term)}
    (h : List.Forall₂ IsSum fs tss) :
    ∃ ps, List.Forall₂ (fun f p => readSum f = .ok p) fs ps ∧ ps.map Polynomial.terms = tss := by
  induction h with
  | nil => exact ⟨[], .nil, rfl⟩
  | cons hs _ ih =>
    obtain ⟨p, hp, rfl⟩ := hs.readSum
    obtain ⟨ps, hps, rfl⟩ := ih
    exact ⟨p :: ps, .cons hp hps, rfl⟩

lemma ofText_bracketed {fs : List (List Char)} {tss : List (List Term)} (hne : fs ≠ [])
    (h : List.Forall₂ IsSum fs tss) : Shape.ofText (bracketed fs) = .ok (.product fs) := by
  apply Shape.ofText_eq_product_iff.mpr
  exact ⟨hne, rfl, forall_left_of_forall₂ (fun _ _ hs => hs.isBody.2) h⟩

lemma readText_of_isSum {cs : List Char} {ts : List Term} (h : IsSum (Text.strip cs) ts) :
    ∃ p, Polynomial.readText cs = .ok p ∧ p.terms = ts := by
  obtain ⟨p, hp, hts⟩ := h.readSum
  refine ⟨p, ?_, hts⟩
  rw [Polynomial.readText, Shape.ofText_of_isBody h.isBody]
  exact hp

lemma readText_of_isProduct {cs : List Char} {tss : List (List Term)}
    (h : IsProduct (Text.strip cs) tss) :
    ∃ p, Polynomial.readText cs = .ok p ∧ IsProductOf tss p := by
  obtain ⟨fs, hne, hcs, h⟩ := isProduct_iff_bracketed.mp h
  obtain ⟨ps, hps, rfl⟩ := readSum_of_forall₂_isSum h
  refine ⟨_, ?_, isProductOf_foldl ps⟩
  rw [Polynomial.readText, ← hcs, ofText_bracketed hne h]
  exact foldlM_mul_eq_ok_iff.mpr ⟨ps, hps, rfl⟩

lemma isSum_or_isProduct_of_readText {cs : List Char} {p : Polynomial}
    (h : Polynomial.readText cs = .ok p) :
    (∃ ts, IsSum (Text.strip cs) ts) ∨ ∃ tss, IsProduct (Text.strip cs) tss := by
  rw [Polynomial.readText] at h
  cases hshape : Shape.ofText (Text.strip cs) with
  | error f =>
    rw [hshape] at h
    cases h
  | ok shape =>
    rw [hshape] at h
    cases shape with
    | sum body =>
      obtain ⟨-, rfl⟩ := Shape.ofText_eq_sum_iff.mp hshape
      exact Or.inl ⟨p.terms, readSum_eq_ok_iff.mp h⟩
    | product fs =>
      obtain ⟨hne, hcs, -⟩ := Shape.ofText_eq_product_iff.mp hshape
      obtain ⟨ps, hps, -⟩ := foldlM_mul_eq_ok_iff.mp h
      refine Or.inr ⟨ps.map Polynomial.terms, isProduct_iff_bracketed.mpr ⟨fs, hne, hcs.symm, ?_⟩⟩
      exact forall₂_isSum_of_readSum hps

lemma read_eq_ok_iff_readText {raw : String} {p : Polynomial} :
    Polynomial.read raw = .ok p ↔ Polynomial.readText raw.toList = .ok p := by
  rw [Polynomial.read]
  cases Polynomial.readText raw.toList with
  | error f => exact ⟨nofun, nofun⟩
  | ok q => exact ⟨fun h => congrArg _ (Except.ok.inj h), fun h => congrArg _ (Except.ok.inj h)⟩

lemma exists_read_iff (raw : String) :
    (∃ p, Polynomial.read raw = .ok p) ↔
      (∃ ts, IsSum (Text.strip raw.toList) ts) ∨ ∃ tss, IsProduct (Text.strip raw.toList) tss := by
  simp only [read_eq_ok_iff_readText]
  constructor
  · rintro ⟨p, hp⟩
    exact isSum_or_isProduct_of_readText hp
  · rintro (⟨ts, h⟩ | ⟨tss, h⟩)
    · obtain ⟨p, hp, -⟩ := readText_of_isSum h
      exact ⟨p, hp⟩
    · obtain ⟨p, hp, -⟩ := readText_of_isProduct h
      exact ⟨p, hp⟩

lemma IsProduct.wellSigned {cs : List Char} {tss : List (List Term)} (h : IsProduct cs tss) :
    ∃ fs, fs ≠ [] ∧ cs = bracketed fs ∧ ∀ f ∈ fs, WellSigned f := by
  obtain ⟨fs, hne, hcs, hfs⟩ := isProduct_iff_bracketed.mp h
  exact ⟨fs, hne, hcs.symm, forall_left_of_forall₂ (fun _ _ hs => hs.wellSigned) hfs⟩

/-- The texts that are read are the sums and products of the grammar, and they mean what is
written: the terms of a sum as they stand, and the canonical product of the factors. -/
theorem read_accepts_grammar (raw : String) :
    ((∃ p, Polynomial.read raw = .ok p) ↔
      (∃ ts, IsSum (Text.strip raw.toList) ts) ∨ ∃ tss, IsProduct (Text.strip raw.toList) tss) ∧
    (∀ ts, IsSum (Text.strip raw.toList) ts → ∃ p, Polynomial.read raw = .ok p ∧ p.terms = ts) ∧
    (∀ tss, IsProduct (Text.strip raw.toList) tss →
      ∃ p, Polynomial.read raw = .ok p ∧ IsProductOf tss p ∧ ∀ q, IsProductOf tss q → q = p) ∧
    ∀ p, Polynomial.read raw = .ok p → WellSigned (Text.strip raw.toList) ∨
      ∃ fs, fs ≠ [] ∧ Text.strip raw.toList = bracketed fs ∧ ∀ f ∈ fs, WellSigned f := by
  refine ⟨exists_read_iff raw, ?_, ?_, ?_⟩
  · intro ts h
    obtain ⟨p, hp, hts⟩ := readText_of_isSum h
    exact ⟨p, read_eq_ok_iff_readText.mpr hp, hts⟩
  · intro tss h
    obtain ⟨p, hp, hprod⟩ := readText_of_isProduct h
    exact ⟨p, read_eq_ok_iff_readText.mpr hp, hprod, fun q hq => hq.eq hprod⟩
  · intro p hp
    rcases (exists_read_iff raw).mp ⟨p, hp⟩ with ⟨ts, h⟩ | ⟨tss, h⟩
    · exact Or.inl h.wellSigned
    · exact Or.inr h.wellSigned

theorem read_accepts_spaced_sum :
    ∃ p, Polynomial.read " 2*x - x^01" = .ok p ∧ p.terms = [⟨1, 2⟩, ⟨1, -1⟩] := by
  have htwo : IsCoefficient ['2'] := ⟨by decide, by decide, by decide, nofun⟩
  have hone : IsDegree ['0', '1'] := isDegree_iff.mpr (by decide)
  have hlast : SignedMonomial ['-', 'x', '^', '0', '1'] ⟨1, -1⟩ :=
    .intro (by decide) (.power hone) ⟨by decide, by decide⟩
  have hsum : IsSum (['2', '*', 'x'] ++ (['-', 'x', '^', '0', '1'] ++ [])) [⟨1, 2⟩, ⟨1, -1⟩] :=
    .plus (.linear htwo) ⟨by decide, by decide⟩ (.cons hlast .nil)
  exact (read_accepts_grammar " 2*x - x^01").2.1 [⟨1, 2⟩, ⟨1, -1⟩] hsum

end Polycalc.Grammar
