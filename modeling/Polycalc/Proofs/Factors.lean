import Polycalc.Proofs.Answer
import Polycalc.Proofs.Grammar.Product
import Polycalc.Proofs.Value

namespace Polycalc

namespace Grammar

open Traversal

lemma SignedMonomial.degree_le {run : List Char} {t : Term} (h : SignedMonomial run t) :
    t.degree.toNat ≤ Text.maxNumeral := by
  obtain ⟨_, hm, ht⟩ := h
  rw [ht.degree]
  exact hm.le.2

lemma IsSum.degree_le {cs : List Char} {ts : List Term} (h : IsSum cs ts) :
    ∀ t ∈ ts, t.degree.toNat ≤ Text.maxNumeral := by
  have hruns := tail_withSign_iff.mp (isSum_iff_tail.mp h)
  exact forall_right_of_forall₂ (fun _ _ hr => hr.degree_le) hruns

end Grammar

namespace Shape

lemma intercalate_append_close (f : List Char) (fs : List (List Char)) :
    [')', '*', '('].intercalate (f :: fs) ++ [')'] = f ++ closing fs := by
  induction fs generalizing f with
  | nil => simp [closing]
  | cons g gs ih =>
    rw [List.intercalate_cons_cons, List.append_assoc, ih, closing]
    simp

lemma strip_closing (fs : List (List Char)) :
    Text.strip (closing fs) = closing (fs.map Text.strip) := by
  induction fs with
  | nil => decide
  | cons f fs ih =>
    rw [closing, List.map_cons, closing, Text.strip_cons (by decide), Text.strip_cons (by decide),
      Text.strip_cons (by decide), Text.strip_append, ih]

lemma strip_bracketed (fs : List (List Char)) :
    Text.strip (bracketed fs) = bracketed (fs.map Text.strip) := by
  cases fs with
  | nil => rfl
  | cons f fs =>
    rw [bracketed, List.map_cons, bracketed, Text.strip_cons (by decide), Text.strip_append,
      strip_closing]

end Shape

namespace Polynomial

open Grammar (foldlM_mul_eq read_eq_ok_iff_readText readSum_eq_ok_iff)
open Traversal

def productText (bs : List String) : String := "(" ++ ")*(".intercalate bs ++ ")"

lemma toList_productText {bs : List String} (hne : bs ≠ []) :
    (productText bs).toList = Shape.bracketed (bs.map String.toList) := by
  obtain ⟨b, bs, rfl⟩ := List.exists_cons_of_ne_nil hne
  have h := Shape.intercalate_append_close b.toList (bs.map String.toList)
  simp [productText, Shape.bracketed, ← h]

def IsSumText (b : String) : Prop := Shape.IsBody (Text.strip b.toList)

instance : DecidablePred IsSumText := fun b =>
  inferInstanceAs (Decidable (Shape.IsBody (Text.strip b.toList)))

lemma IsSumText.read_eq_ok_iff {b : String} (hb : IsSumText b) {p : Polynomial} :
    read b = .ok p ↔ readSum (Text.strip b.toList) = .ok p := by
  rw [read_eq_ok_iff_readText, readText, Shape.ofText_of_isBody hb]
  rfl

lemma IsSumText.largestDegree_le {b : String} (hb : IsSumText b) {p : Polynomial}
    (h : read b = .ok p) : p.largestDegree ≤ Text.maxNumeral := by
  apply Polynomial.largestDegree_le
  exact (readSum_eq_ok_iff.mp (hb.read_eq_ok_iff.mp h)).degree_le

variable {bs : List String} {ps : List Polynomial}

lemma readText_productText (hne : bs ≠ [])
    (hbs : ∀ b ∈ bs, ∀ c ∈ Text.strip b.toList, Shape.IsBodyChar c) :
    readText (productText bs).toList =
      (·.foldl (· * ·) one) <$> (bs.map fun b => Text.strip b.toList).mapM readSum := by
  have hshape : Shape.ofText (Shape.bracketed (bs.map fun b => Text.strip b.toList)) =
      .ok (.product (bs.map fun b => Text.strip b.toList)) := by
    apply Shape.ofText_eq_product_iff.mpr
    refine ⟨by simpa using hne, rfl, ?_⟩
    simpa using hbs
  rw [readText, toList_productText hne, Shape.strip_bracketed, List.map_map, Function.comp_def,
    hshape]
  exact foldlM_mul_eq _ one

theorem read_productText (hne : bs ≠ []) (hbs : ∀ b ∈ bs, IsSumText b)
    (hps : List.Forall₂ (fun b p => read b = .ok p) bs ps) :
    read (productText bs) = .ok (ps.foldl (· * ·) one) := by
  rw [read_eq_ok_iff_readText, readText_productText hne fun b hb => (hbs b hb).2, map_eq_ok_iff]
  refine ⟨ps, mapM_eq_ok_iff.mpr ?_, rfl⟩
  rw [List.forall₂_map_left_iff]
  apply ((List.forall₂_and_left _ _).mpr ⟨hbs, hps⟩).imp
  rintro b p ⟨hb, hp⟩
  exact hb.read_eq_ok_iff.mp hp

lemma sum_largestDegree_le (h : List.Forall₂ (fun b p => IsSumText b ∧ read b = .ok p) bs ps) :
    (ps.map largestDegree).sum ≤ bs.length * Text.maxNumeral := by
  induction h with
  | nil => simp
  | cons hp _ ih =>
    have hle := hp.1.largestDegree_le hp.2
    simp only [List.map_cons, List.sum_cons, List.length_cons, Nat.add_mul]
    omega

theorem value_productText (hne : bs ≠ []) (hbs : ∀ b ∈ bs, IsSumText b)
    (hps : List.Forall₂ (fun b p => read b = .ok p) bs ps) :
    (bs.length ≤ 4 → (ps.map largestDegree).sum ≤ 4294967295) ∧
    ((ps.map largestDegree).sum ≤ 4294967295 → ∀ x, ∃ vs : List Int64,
      List.Forall₂ (fun b v => Answer.value b x = .ok v) bs vs ∧
      Answer.value (productText bs) x = .ok vs.prod) := by
  constructor
  · intro hlen
    have hsum := sum_largestDegree_le ((List.forall₂_and_left _ _).mpr ⟨hbs, hps⟩)
    rw [Text.maxNumeral] at hsum
    omega
  · intro hsum x
    have hsize : (ps.map largestDegree).sum < UInt32.size := Nat.lt_succ_of_le hsum
    refine ⟨ps.map (evaluate · x), ?_, ?_⟩
    · rw [List.forall₂_map_right_iff]
      apply hps.imp
      intro b p hp
      exact Answer.value_of_read hp x
    · rw [Answer.value_of_read (read_productText hne hbs hps), evaluate_foldl_mul hsize]

theorem value_productText_high_degrees :
    let bs := ["3*x^999999999 + 1", "2*x - 7", "-x^999999999"]
    (∀ b ∈ bs, IsSumText b) ∧ ∀ x, ∃ vs : List Int64,
      List.Forall₂ (fun b v => Answer.value b x = .ok v) bs vs ∧
      Answer.value "(3*x^999999999 + 1)*(2*x - 7)*(-x^999999999)" x = .ok vs.prod := by
  intro bs
  have hbs : ∀ b ∈ bs, IsSumText b := by
    simp only [bs, List.forall_mem_cons]
    exact ⟨by decide, by decide, by decide, nofun⟩
  have hps : List.Forall₂ (fun b p => read b = .ok p) bs
      [ofTerms [⟨999999999, 3⟩, ⟨0, 1⟩], ofTerms [⟨1, 2⟩, ⟨0, -7⟩], ofTerms [⟨999999999, -1⟩]] :=
    .cons (by decide) (.cons (by decide) (.cons (by decide) .nil))
  obtain ⟨hsum, hvalue⟩ := value_productText (List.cons_ne_nil _ _) hbs hps
  exact ⟨hbs, hvalue (hsum (by decide))⟩

end Polynomial

end Polycalc
