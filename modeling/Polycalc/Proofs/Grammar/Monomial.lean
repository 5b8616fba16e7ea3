import Mathlib.Data.Int.Notation
import Polycalc.Proofs.Term
import Polycalc.Proofs.Traversal

namespace Polycalc.Grammar

open Run (IsSign)
open Term (signed readDegree readCoefficient readFactor)
open Text (maxNumeral)
open Traversal

def value (ds : List Char) : ℕ := Nat.ofDigitChars 10 ds 0

inductive IsDegree : List Char → Prop
  | intro {ds : List Char} :
      ds ≠ [] → ds.length ≤ 9 → (∀ c ∈ ds, c.isDigit) → IsDegree ds

inductive IsCoefficient : List Char → Prop
  | intro {c : Char} {ds : List Char} :
      c.isDigit → c ≠ '0' → ds.length ≤ 8 → (∀ d ∈ ds, d.isDigit) → IsCoefficient (c :: ds)

inductive Monomial : List Char → ℕ → ℕ → Prop
  | constant {ds : List Char} : IsCoefficient ds → Monomial ds (value ds) 0
  | bare : Monomial ['x'] 1 1
  | power {es : List Char} : IsDegree es → Monomial ('x' :: '^' :: es) 1 (value es)
  | linear {ds : List Char} : IsCoefficient ds → Monomial (ds ++ ['*', 'x']) (value ds) 1
  | multiple {ds es : List Char} : IsCoefficient ds → IsDegree es →
      Monomial (ds ++ '*' :: 'x' :: '^' :: es) (value ds) (value es)

structure IsSigned (s : Char) (c d : ℕ) (t : Term) : Prop where
  coefficient : t.coefficient.toInt = if s = '-' then -(c : ℤ) else c
  degree : t.degree.toNat = d

inductive SignedMonomial : List Char → Term → Prop
  | intro {s : Char} {m : List Char} {c d : ℕ} {t : Term} :
      IsSign s → Monomial m c d → IsSigned s c d t → SignedMonomial (s :: m) t

lemma isDegree_iff {ds : List Char} : IsDegree ds ↔ Text.IsNumeral ds := by
  constructor
  · rintro ⟨hne, hle, hds⟩
    exact ⟨List.length_pos_iff.mpr hne, hle, List.all_eq_true.mpr hds⟩
  · rintro ⟨hpos, hle, hds⟩
    exact ⟨List.length_pos_iff.mp hpos, hle, List.all_eq_true.mp hds⟩

lemma isCoefficient_iff {ds : List Char} :
    IsCoefficient ds ↔ IsDegree ds ∧ ds.head? ≠ some '0' := by
  constructor
  · rintro ⟨hc, hne, hle, hds⟩
    refine ⟨⟨List.cons_ne_nil _ _, Nat.succ_le_succ hle, ?_⟩, fun h => hne (Option.some.inj h)⟩
    exact List.forall_mem_cons.mpr ⟨hc, hds⟩
  · rintro ⟨⟨hne, hle, hds⟩, hz⟩
    obtain ⟨c, r, rfl⟩ := List.exists_cons_of_ne_nil hne
    obtain ⟨hc, hr⟩ := List.forall_mem_cons.mp hds
    exact ⟨hc, fun h => hz (congrArg some h), Nat.le_of_succ_le_succ hle, hr⟩

lemma IsDegree.value_le {ds : List Char} (h : IsDegree ds) : value ds ≤ maxNumeral := by
  obtain ⟨_, hle, hds⟩ := h
  have hlt := Text.ofDigitChars_lt hds
  have hpow : 10 ^ ds.length ≤ 10 ^ 9 := Nat.pow_le_pow_right (by decide) hle
  rw [value, maxNumeral]
  omega

lemma Monomial.le {m : List Char} {c d : ℕ} (h : Monomial m c d) :
    c ≤ maxNumeral ∧ d ≤ maxNumeral := by
  cases h with
  | constant hc => exact ⟨(isCoefficient_iff.mp hc).1.value_le, Nat.zero_le _⟩
  | bare => exact ⟨by decide, by decide⟩
  | power hd => exact ⟨by decide, hd.value_le⟩
  | linear hc => exact ⟨(isCoefficient_iff.mp hc).1.value_le, by decide⟩
  | multiple hc hd => exact ⟨(isCoefficient_iff.mp hc).1.value_le, hd.value_le⟩

lemma numeral?_eq_some_iff {ds : List Char} {n : ℕ} :
    Text.numeral? ds = some n ↔ IsDegree ds ∧ value ds = n := by
  rw [Text.numeral?_eq_some_iff, isDegree_iff, value]

lemma magnitude?_eq_some_iff {ds : List Char} {n : ℕ} :
    Term.magnitude? ds = some n ↔ IsCoefficient ds ∧ value ds = n := by
  rw [Term.magnitude?_eq, isCoefficient_iff]
  by_cases hz : ds.head? = some '0'
  · simp [hz]
  · simp [hz, numeral?_eq_some_iff]

lemma readCoefficient_eq_ok_iff {s : Char} (hs : IsSign s) {ds : List Char} {a : Int64} :
    readCoefficient (s :: ds) = .ok a ↔ IsCoefficient ds ∧ a = signed s (value ds) := by
  rw [readCoefficient, Term.coefficient?_cons hs]
  cases hm : Term.magnitude? ds with
  | none =>
    have hne : ¬ IsCoefficient ds := by
      intro h
      have hsome := magnitude?_eq_some_iff.mpr ⟨h, rfl⟩
      rw [hm] at hsome
      cases hsome
    exact ⟨nofun, fun h => (hne h.1).elim⟩
  | some n =>
    obtain ⟨hds, rfl⟩ := magnitude?_eq_some_iff.mp hm
    exact ⟨fun h => ⟨hds, (Except.ok.inj h).symm⟩, fun h => by rw [h.2]; rfl⟩

lemma readPower_eq_ok_iff {run after : List Char} {e : UInt32} :
    Term.readPower run after = .ok e ↔
      ∃ es, after = '^' :: es ∧ IsDegree es ∧ e = UInt32.ofNat (value es) := by
  rw [Term.readPower.eq_def]
  split
  case h_1 es =>
    cases hn : Text.numeral? es with
    | none =>
      refine ⟨nofun, ?_⟩
      rintro ⟨ds, hds, hd, _⟩
      obtain rfl := (List.cons.inj hds).2
      rw [numeral?_eq_some_iff.mpr ⟨hd, rfl⟩] at hn
      cases hn
    | some n =>
      obtain ⟨hd, rfl⟩ := numeral?_eq_some_iff.mp hn
      constructor
      · exact fun h => ⟨es, rfl, hd, (Except.ok.inj h).symm⟩
      · rintro ⟨ds, hds, _, rfl⟩
        rw [(List.cons.inj hds).2]
  case h_2 hne =>
    refine ⟨nofun, ?_⟩
    rintro ⟨es, rfl, _⟩
    exact (hne es rfl).elim

lemma readDegree_nil (run : List Char) : readDegree run [] = .ok 1 := rfl

lemma readDegree_cons (run : List Char) (c : Char) (r : List Char) :
    readDegree run (c :: r) = Term.readPower run (c :: r) := rfl

lemma readDegree_eq_ok_iff {run after : List Char} {e : UInt32} :
    readDegree run after = .ok e ↔ (after = [] ∧ e = 1) ∨
      ∃ es, after = '^' :: es ∧ IsDegree es ∧ e = UInt32.ofNat (value es) := by
  cases after with
  | nil => simp [readDegree_nil, eq_comm]
  | cons c r => simp [readDegree_cons, readPower_eq_ok_iff]

lemma readFactor_eq_ok_iff {run : List Char} {s : Char} (hs : IsSign s) {b : List Char}
    {a : Int64} :
    readFactor run (s :: b) = .ok a ↔
      ∃ ds, b = ds ++ ['*'] ∧ IsCoefficient ds ∧ a = signed s (value ds) := by
  constructor
  · intro h
    by_cases hlast : (s :: b).getLast? = some '*'
    · obtain ⟨l, hl⟩ := List.getLast?_eq_some_iff.mp hlast
      cases l with
      | nil =>
        obtain ⟨rfl, -⟩ := List.cons.inj hl
        rcases hs with hs | hs <;> cases hs
      | cons c ds =>
        obtain ⟨rfl, hb⟩ := List.cons.inj hl
        rw [hl, Term.readFactor_append, readCoefficient_eq_ok_iff hs] at h
        exact ⟨ds, hb, h⟩
    · rw [readFactor, if_neg hlast] at h
      cases h
  · rintro ⟨ds, rfl, h⟩
    rw [← List.cons_append, Term.readFactor_append]
    exact (readCoefficient_eq_ok_iff hs).mpr h

lemma isSigned_iff {s : Char} {c d : ℕ} {t : Term} (hc : c ≤ maxNumeral) (hd : d ≤ maxNumeral) :
    IsSigned s c d t ↔ t = ⟨UInt32.ofNat d, signed s c⟩ := by
  have hd' : (UInt32.ofNat d).toNat = d := by
    rw [maxNumeral] at hd
    exact UInt32.toNat_ofNat_of_lt' (by rw [UInt32.size]; omega)
  obtain ⟨e, a⟩ := t
  constructor
  · rintro ⟨ha, he⟩
    rw [← Term.toInt_signed s hc] at ha
    exact congrArg₂ Term.mk (UInt32.toNat_inj.mp (he.trans hd'.symm)) (Int64.toInt_inj.mp ha)
  · intro h
    cases h
    exact ⟨Term.toInt_signed s hc, hd'⟩

lemma signedMonomial_iff {s : Char} (hs : IsSign s) {m : List Char} {t : Term} :
    SignedMonomial (s :: m) t ↔
      ∃ c d, Monomial m c d ∧ t = ⟨UInt32.ofNat d, signed s c⟩ := by
  constructor
  · rintro ⟨_, hm, ht⟩
    exact ⟨_, _, hm, (isSigned_iff hm.le.1 hm.le.2).mp ht⟩
  · rintro ⟨c, d, hm, ht⟩
    exact ⟨hs, hm, (isSigned_iff hm.le.1 hm.le.2).mpr ht⟩

lemma IsDegree.not_mem {ds : List Char} (h : IsDegree ds) {c : Char} (hc : c.isDigit = false) :
    c ∉ ds := by
  obtain ⟨_, _, hds⟩ := h
  intro hmem
  rw [hds c hmem] at hc
  cases hc

lemma IsCoefficient.not_mem {ds : List Char} (h : IsCoefficient ds) {c : Char}
    (hc : c.isDigit = false) : c ∉ ds := (isCoefficient_iff.mp h).1.not_mem hc

lemma not_mem_of_not_isSign {s : Char} (hs : IsSign s) {c : Char} (hc : ¬ IsSign c)
    {m : List Char} (hm : c ∉ m) : c ∉ s :: m := by
  rw [List.mem_cons, not_or]
  exact ⟨fun h => hc (h ▸ hs), hm⟩

lemma read_multiple {s : Char} (hs : IsSign s) {ds : List Char} (hc : IsCoefficient ds)
    (after : List Char) {e : UInt32}
    (hd : readDegree (s :: (ds ++ ['*'] ++ 'x' :: after)) after = .ok e) :
    Term.read (s :: (ds ++ ['*'] ++ 'x' :: after)) = .ok ⟨e, signed s (value ds)⟩ := by
  have hx : 'x' ∉ ds ++ ['*'] := by
    rw [List.mem_append, not_or]
    exact ⟨hc.not_mem (by decide), by decide⟩
  rw [Term.read_factor hs (by simp) hx, bind_eq_ok_iff]
  refine ⟨e, hd, bind_eq_ok_iff.mpr ⟨signed s (value ds), ?_, rfl⟩⟩
  exact (readFactor_eq_ok_iff hs).mpr ⟨ds, rfl, hc, rfl⟩

lemma read_of_monomial {s : Char} (hs : IsSign s) {m : List Char} {c d : ℕ}
    (hm : Monomial m c d) : Term.read (s :: m) = .ok ⟨UInt32.ofNat d, signed s c⟩ := by
  cases hm with
  | constant hc =>
    have hx : 'x' ∉ s :: m := not_mem_of_not_isSign hs (by decide) (hc.not_mem (by decide))
    rw [Term.read_of_not_mem hx, map_eq_ok_iff]
    exact ⟨_, (readCoefficient_eq_ok_iff hs).mpr ⟨hc, rfl⟩, rfl⟩
  | bare =>
    rw [Term.read_unit hs, map_eq_ok_iff]
    exact ⟨1, readDegree_nil _, rfl⟩
  | power hd =>
    rw [Term.read_unit hs, map_eq_ok_iff]
    exact ⟨_, readDegree_eq_ok_iff.mpr (Or.inr ⟨_, rfl, hd, rfl⟩), rfl⟩
  | @linear ds hc =>
    have h := read_multiple hs hc [] (readDegree_nil _)
    rwa [List.append_assoc] at h
  | @multiple ds es hc hd =>
    have h := read_multiple hs hc ('^' :: es)
      (readDegree_eq_ok_iff.mpr (Or.inr ⟨es, rfl, hd, rfl⟩))
    rwa [List.append_assoc] at h

lemma monomial_of_read {s : Char} (hs : IsSign s) {m : List Char} {t : Term}
    (h : Term.read (s :: m) = .ok t) :
    ∃ c d, Monomial m c d ∧ t = ⟨UInt32.ofNat d, signed s c⟩ := by
  -- what stands before the first `x` tells the monomials apart
  by_cases hx : 'x' ∈ m
  · obtain ⟨b, after, rfl, hb⟩ := List.eq_append_cons_of_mem hx
    cases b with
    | nil =>
      rw [List.nil_append, Term.read_unit hs, map_eq_ok_iff] at h
      obtain ⟨e, he, rfl⟩ := h
      rcases readDegree_eq_ok_iff.mp he with ⟨rfl, rfl⟩ | ⟨es, rfl, hd, rfl⟩
      · exact ⟨1, 1, .bare, rfl⟩
      · exact ⟨1, _, .power hd, rfl⟩
    | cons c b =>
      rw [Term.read_factor hs (List.cons_ne_nil c b) hb, bind_eq_ok_iff] at h
      obtain ⟨e, he, h⟩ := h
      obtain ⟨a, ha, h⟩ := bind_eq_ok_iff.mp h
      obtain rfl := Except.ok.inj h
      obtain ⟨ds, hds, hc, rfl⟩ := (readFactor_eq_ok_iff hs).mp ha
      rw [hds, List.append_assoc]
      rcases readDegree_eq_ok_iff.mp he with ⟨rfl, rfl⟩ | ⟨es, rfl, hd, rfl⟩
      · exact ⟨_, 1, .linear hc, rfl⟩
      · exact ⟨_, _, .multiple hc hd, rfl⟩
  · have hsx : 'x' ∉ s :: m := not_mem_of_not_isSign hs (by decide) hx
    rw [Term.read_of_not_mem hsx, map_eq_ok_iff] at h
    obtain ⟨a, ha, rfl⟩ := h
    obtain ⟨hc, rfl⟩ := (readCoefficient_eq_ok_iff hs).mp ha
    exact ⟨_, 0, .constant hc, rfl⟩

theorem read_eq_ok_iff {run : List Char} (hr : Run.IsRun run) {t : Term} :
    Term.read run = .ok t ↔ SignedMonomial run t := by
  obtain ⟨s, m, rfl, hs, -⟩ := hr
  rw [signedMonomial_iff hs]
  constructor
  · exact monomial_of_read hs
  · rintro ⟨c, d, hm, rfl⟩
    exact read_of_monomial hs hm

end Polycalc.Grammar
