import Polycalc.Polynomial.Reader
import Polycalc.Proofs.Collect
import Polycalc.Proofs.Grammar.Monomial

namespace Polycalc.Grammar

open Run (IsSign IsRun)
open Traversal

inductive Tail : List Char → List Term → Prop
  | nil : Tail [] []
  | cons {run cs : List Char} {t : Term} {ts : List Term} :
      SignedMonomial run t → Tail cs ts → Tail (run ++ cs) (t :: ts)

inductive IsSum : List Char → List Term → Prop
  | plus {m cs : List Char} {c d : ℕ} {t : Term} {ts : List Term} :
      Monomial m c d → IsSigned '+' c d t → Tail cs ts → IsSum (m ++ cs) (t :: ts)
  | minus {m cs : List Char} {c d : ℕ} {t : Term} {ts : List Term} :
      Monomial m c d → IsSigned '-' c d t → Tail cs ts → IsSum ('-' :: (m ++ cs)) (t :: ts)

def IsMonomialChar (c : Char) : Prop := c.isDigit ∨ c ∈ ['x', '*', '^']

lemma IsDegree.chars {ds : List Char} (h : IsDegree ds) : ∀ c ∈ ds, IsMonomialChar c := by
  obtain ⟨_, _, hds⟩ := h
  exact fun c hc => Or.inl (hds c hc)

lemma IsCoefficient.chars {ds : List Char} (h : IsCoefficient ds) : ∀ c ∈ ds, IsMonomialChar c :=
  (isCoefficient_iff.mp h).1.chars

lemma Monomial.chars {m : List Char} {c d : ℕ} (h : Monomial m c d) :
    ∀ ch ∈ m, IsMonomialChar ch := by
  have hx : IsMonomialChar 'x' := Or.inr (by decide)
  have htimes : IsMonomialChar '*' := Or.inr (by decide)
  have hcaret : IsMonomialChar '^' := Or.inr (by decide)
  cases h with
  | constant hc => exact hc.chars
  | bare => exact List.forall_mem_singleton.mpr hx
  | power hd => exact List.forall_mem_cons.mpr ⟨hx, List.forall_mem_cons.mpr ⟨hcaret, hd.chars⟩⟩
  | linear hc =>
    refine List.forall_mem_append.mpr ⟨hc.chars, ?_⟩
    exact List.forall_mem_cons.mpr ⟨htimes, List.forall_mem_singleton.mpr hx⟩
  | multiple hc hd =>
    refine List.forall_mem_append.mpr ⟨hc.chars, ?_⟩
    refine List.forall_mem_cons.mpr ⟨htimes, List.forall_mem_cons.mpr ⟨hx, ?_⟩⟩
    exact List.forall_mem_cons.mpr ⟨hcaret, hd.chars⟩

lemma IsMonomialChar.not_isSign {c : Char} (h : IsMonomialChar c) : ¬ IsSign c := by
  rintro (rfl | rfl)
  · exact absurd h (by unfold IsMonomialChar; decide)
  · exact absurd h (by unfold IsMonomialChar; decide)

lemma IsMonomialChar.isBodyChar {c : Char} (h : IsMonomialChar c) : Shape.IsBodyChar c := by
  rcases h with h | h
  · exact Or.inl h
  · refine Or.inr ?_
    simp only [List.mem_cons, List.not_mem_nil, or_false] at h ⊢
    rcases h with rfl | rfl | rfl <;> simp

lemma IsCoefficient.value_pos {ds : List Char} (h : IsCoefficient ds) : 0 < value ds := by
  cases h with
  | @intro c ds hc hne hle hds =>
    have hd := Text.isDigit_toNat hc
    have hz : '0'.toNat = 48 := rfl
    have hpos : 0 < c.toNat - '0'.toNat := by
      have hc48 : c.toNat ≠ 48 := fun h => hne (Char.toNat_inj.mp h)
      omega
    rw [value, Text.ofDigitChars_cons]
    exact Nat.add_pos_left (Nat.mul_pos (Nat.pow_pos (by decide)) hpos) _

lemma Monomial.pos {m : List Char} {c d : ℕ} (h : Monomial m c d) : 0 < c := by
  cases h with
  | constant hc => exact hc.value_pos
  | bare => exact Nat.one_pos
  | power hd => exact Nat.one_pos
  | linear hc => exact hc.value_pos
  | multiple hc hd => exact hc.value_pos

lemma SignedMonomial.isRun {run : List Char} {t : Term} (h : SignedMonomial run t) :
    IsRun run := by
  obtain ⟨hs, hm, _⟩ := h
  exact ⟨_, _, rfl, hs, fun c hc => (hm.chars c hc).not_isSign⟩

lemma SignedMonomial.not_isZero {run : List Char} {t : Term} (h : SignedMonomial run t) :
    ¬ t.IsZero := by
  obtain ⟨_, hm, ht, _⟩ := h
  have hpos := hm.pos
  intro hz
  rw [hz, Int64.toInt_zero] at ht
  split_ifs at ht <;> omega

lemma tail_iff_forall₂ {cs : List Char} {ts : List Term} :
    Tail cs ts ↔ ∃ runs, runs.flatten = cs ∧ List.Forall₂ SignedMonomial runs ts := by
  constructor
  · intro h
    induction h with
    | nil => exact ⟨[], rfl, .nil⟩
    | cons hr _ ih =>
      obtain ⟨runs, rfl, h⟩ := ih
      exact ⟨_ :: runs, rfl, .cons hr h⟩
  · rintro ⟨runs, rfl, h⟩
    induction h with
    | nil => exact .nil
    | cons hr _ ih => exact .cons hr ih

lemma split_of_forall₂ {runs : List (List Char)} {ts : List Term}
    (h : List.Forall₂ SignedMonomial runs ts) : Run.split runs.flatten = runs := by
  apply Run.split_runs
  induction h with
  | nil => exact fun r hr => (List.not_mem_nil hr).elim
  | cons hr _ ih => exact List.forall_mem_cons.mpr ⟨hr.isRun, ih⟩

lemma tail_withSign_iff {cs : List Char} {ts : List Term} :
    Tail (Run.withSign cs) ts ↔
      List.Forall₂ SignedMonomial (Run.split (Run.withSign cs)) ts := by
  rw [tail_iff_forall₂]
  constructor
  · rintro ⟨runs, hruns, h⟩
    rw [← hruns, split_of_forall₂ h]
    exact h
  · exact fun h => ⟨_, Run.split_withSign_flatten cs, h⟩

lemma Monomial.ne_nil {m : List Char} {c d : ℕ} (h : Monomial m c d) : m ≠ [] := by
  cases h with
  | constant hc =>
    cases hc
    exact List.cons_ne_nil _ _
  | bare => exact List.cons_ne_nil _ _
  | power hd => exact List.cons_ne_nil _ _
  | linear hc => exact List.append_ne_nil_of_right_ne_nil _ (List.cons_ne_nil _ _)
  | multiple hc hd => exact List.append_ne_nil_of_right_ne_nil _ (List.cons_ne_nil _ _)

lemma Tail.of_cons {s : Char} {cs : List Char} {ts : List Term} (h : Tail (s :: cs) ts) :
    ∃ m r c d t us, cs = m ++ r ∧ Monomial m c d ∧ IsSigned s c d t ∧ Tail r us ∧ ts = t :: us := by
  generalize hs : s :: cs = l at h
  cases h with
  | nil => cases hs
  | cons hr htail =>
    obtain ⟨_, hm, ht⟩ := hr
    obtain ⟨rfl, rfl⟩ := List.cons.inj hs
    exact ⟨_, _, _, _, _, _, rfl, hm, ht, htail, rfl⟩

lemma Monomial.withSign {m : List Char} {c d : ℕ} (h : Monomial m c d) (cs : List Char) :
    Run.withSign (m ++ cs) = '+' :: (m ++ cs) := by
  apply Run.withSign_of_ne
  intro hhead
  rw [List.head?_append_of_ne_nil _ h.ne_nil] at hhead
  have hmem : '-' ∈ m := List.mem_of_head? hhead
  exact (h.chars '-' hmem).not_isSign Run.isSign_minus

theorem isSum_iff_tail {cs : List Char} {ts : List Term} :
    IsSum cs ts ↔ Tail (Run.withSign cs) ts := by
  constructor
  · rintro (⟨hm, ht, htail⟩ | ⟨hm, ht, htail⟩)
    · -- a monomial has no sign of its own, so the plus that is left out is put back
      rw [hm.withSign]
      exact .cons (.intro Run.isSign_plus hm ht) htail
    · exact .cons (.intro Run.isSign_minus hm ht) htail
  · intro h
    by_cases hhead : cs.head? = some '-'
    · obtain ⟨u, rfl⟩ := List.head?_eq_some_iff.mp hhead
      obtain ⟨m, r, c, d, t, us, rfl, hm, ht, htail, rfl⟩ := Tail.of_cons h
      exact .minus hm ht htail
    · rw [Run.withSign_of_ne hhead] at h
      obtain ⟨m, r, c, d, t, us, rfl, hm, ht, htail, rfl⟩ := Tail.of_cons h
      exact .plus hm ht htail

lemma forall₂_read_iff {cs : List Char} {ts : List Term} :
    List.Forall₂ (fun run t => Term.read run = .ok t) (Run.split cs) ts ↔
      List.Forall₂ SignedMonomial (Run.split cs) ts := by
  have hr : ∀ run ∈ Run.split cs, IsRun run := fun run => Run.isRun_of_mem_split
  constructor
  · intro h
    exact ((List.forall₂_and_left _ _).mpr ⟨hr, h⟩).imp fun run t h => (read_eq_ok_iff h.1).mp h.2
  · intro h
    exact ((List.forall₂_and_left _ _).mpr ⟨hr, h⟩).imp fun run t h => (read_eq_ok_iff h.1).mpr h.2

lemma not_isZero_of_forall₂ {runs : List (List Char)} {ts : List Term}
    (h : List.Forall₂ SignedMonomial runs ts) : ∀ t ∈ ts, ¬ t.IsZero :=
  forall_right_of_forall₂ (fun _ _ hr => hr.not_isZero) h

theorem readSum_eq_ok_iff {cs : List Char} {p : Polynomial} :
    Polynomial.readSum cs = .ok p ↔ IsSum cs p.terms := by
  rw [isSum_iff_tail, tail_withSign_iff, Polynomial.readSum, map_eq_ok_iff]
  simp only [mapM_eq_ok_iff, forall₂_read_iff]
  constructor
  · rintro ⟨ts, h, rfl⟩
    have hz := not_isZero_of_forall₂ h
    rw [Polynomial.terms_ofTerms, List.filter_eq_self.mpr fun t ht => by simpa using hz t ht]
    exact h
  · exact fun h => ⟨p.terms, h, Polynomial.ofTerms_terms p⟩

structure WellSigned (cs : List Char) : Prop where
  ne_nil : cs ≠ []
  head : cs.head? ≠ some '+'
  followed : ∀ a s b, cs = a ++ s :: b → IsSign s → ∃ c r, b = c :: r ∧ ¬ IsSign c

lemma SignedMonomial.followed {run a u : List Char} {s : Char} {t : Term}
    (h : SignedMonomial run t) (hrun : run = a ++ s :: u) (hs : IsSign s) :
    ∃ c r, u = c :: r ∧ ¬ IsSign c := by
  obtain ⟨_, hm, _⟩ := h
  cases a with
  | nil =>
    obtain ⟨rfl, rfl⟩ := List.cons.inj hrun
    obtain ⟨c, r, rfl⟩ := List.exists_cons_of_ne_nil hm.ne_nil
    exact ⟨c, r, rfl, (hm.chars c List.mem_cons_self).not_isSign⟩
  | cons b a =>
    obtain ⟨rfl, rfl⟩ := List.cons.inj hrun
    exact ((hm.chars s (List.mem_append_right a List.mem_cons_self)).not_isSign hs).elim

lemma Tail.followed {cs : List Char} {ts : List Term} (h : Tail cs ts) :
    ∀ a s b, cs = a ++ s :: b → IsSign s → ∃ c r, b = c :: r ∧ ¬ IsSign c := by
  induction h with
  | nil =>
    intro a s b h
    exact (List.append_ne_nil_of_right_ne_nil a (List.cons_ne_nil s b) h.symm).elim
  | @cons run cs t ts hr _ ih =>
    intro a s b h hs
    rcases List.append_eq_append_iff.mp h with ⟨u, rfl, hu⟩ | ⟨u, hu, hb⟩
    · exact ih u s b hu hs
    · cases u with
      | nil => exact ih [] s b hb.symm hs
      | cons d u =>
        obtain ⟨rfl, rfl⟩ := List.cons.inj hb
        obtain ⟨c, r, rfl, hc⟩ := hr.followed hu hs
        exact ⟨c, r ++ cs, rfl, hc⟩

lemma IsSum.wellSigned {cs : List Char} {ts : List Term} (h : IsSum cs ts) : WellSigned cs := by
  have htail := isSum_iff_tail.mp h
  cases h with
  | @plus m cs c d t ts hm _ _ =>
    obtain ⟨ch, m, rfl⟩ := List.exists_cons_of_ne_nil hm.ne_nil
    refine ⟨List.cons_ne_nil _ _, ?_, ?_⟩
    · intro hhead
      obtain rfl : ch = '+' := Option.some.inj hhead
      exact (hm.chars '+' List.mem_cons_self).not_isSign Run.isSign_plus
    · intro a s b h hs
      rw [hm.withSign, h] at htail
      exact htail.followed ('+' :: a) s b rfl hs
  | minus _ _ _ => exact ⟨List.cons_ne_nil _ _, nofun, htail.followed⟩

end Polycalc.Grammar
