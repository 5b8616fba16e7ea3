import Mathlib.Data.Nat.Digits.Defs
import Polycalc.Argument
import Polycalc.Proofs.Grammar.Monomial

namespace Polycalc.Argument

open Grammar (IsDegree isDegree_iff value)
open Term (signed)
open Text (decimal maxNumeral)

def placeValue (ds : List Char) : ℕ := Nat.ofDigits 10 (ds.reverse.map fun d => d.toNat - '0'.toNat)

inductive Literal : List Char → ℤ → Prop
  | plain {ds : List Char} : IsDegree ds → Literal ds (placeValue ds)
  | minus {ds : List Char} : IsDegree ds → Literal ('-' :: ds) (-placeValue ds)

lemma placeValue_cons (d : Char) (ds : List Char) :
    placeValue (d :: ds) = 10 ^ ds.length * (d.toNat - '0'.toNat) + placeValue ds := by
  rw [placeValue, List.reverse_cons, List.map_append, Nat.ofDigits_append, List.map_singleton,
    Nat.ofDigits_singleton, List.length_map, List.length_reverse, Nat.add_comm, placeValue]

lemma value_eq_placeValue (ds : List Char) : value ds = placeValue ds := by
  induction ds with
  | nil => rfl
  | cons d ds ih =>
    rw [value, Text.ofDigitChars_cons, ← value, ih, placeValue_cons]

lemma numeral?_eq_some_iff {ds : List Char} {n : ℕ} :
    Text.numeral? ds = some n ↔ IsDegree ds ∧ placeValue ds = n := by
  rw [Grammar.numeral?_eq_some_iff, value_eq_placeValue]

lemma placeValue_decimal (n : ℕ) : placeValue (decimal n) = n := by
  rw [← value_eq_placeValue, value, Text.ofDigitChars_decimal]

lemma placeValue_le {ds : List Char} (h : IsDegree ds) : placeValue ds ≤ maxNumeral := by
  rw [← value_eq_placeValue]
  exact h.value_le

lemma not_isDegree_cons {s : Char} (hs : s.isDigit = false) (ds : List Char) :
    ¬ IsDegree (s :: ds) := fun h => h.not_mem hs List.mem_cons_self

lemma literal_minus_iff {ds : List Char} {n : ℤ} :
    Literal ('-' :: ds) n ↔ IsDegree ds ∧ n = -placeValue ds := by
  constructor
  · intro h
    cases h with
    | plain hds => exact (not_isDegree_cons (by decide) ds hds).elim
    | minus hds => exact ⟨hds, rfl⟩
  · rintro ⟨hds, rfl⟩
    exact .minus hds

lemma literal_iff {cs : List Char} (hne : ∀ ds, cs ≠ '-' :: ds) {n : ℤ} :
    Literal cs n ↔ IsDegree cs ∧ n = placeValue cs := by
  constructor
  · intro h
    cases h with
    | plain hds => exact ⟨hds, rfl⟩
    | minus hds => exact (hne _ rfl).elim
  · rintro ⟨hds, rfl⟩
    exact .plain hds

lemma Literal.natAbs_le {cs : List Char} {n : ℤ} (h : Literal cs n) : n.natAbs ≤ maxNumeral := by
  cases h with
  | plain hds => exact placeValue_le hds
  | minus hds =>
    rw [Int.natAbs_neg]
    exact placeValue_le hds

lemma isDegree_decimal {n : ℕ} (h : n ≤ maxNumeral) : IsDegree (decimal n) :=
  isDegree_iff.mpr ((Text.isNumeral_decimal_iff n).mpr h)

lemma literal_toString {n : ℤ} (h : n.natAbs ≤ maxNumeral) : Literal (toString n).toList n := by
  rw [Int.toString_eq_repr]
  cases n with
  | ofNat m =>
    have htext : (Int.ofNat m).repr.toList = decimal m := Nat.toList_repr
    have hliteral := Literal.plain (isDegree_decimal h)
    rw [placeValue_decimal] at hliteral
    rw [htext]
    exact hliteral
  | negSucc m =>
    have htext : (Int.negSucc m).repr.toList = '-' :: decimal (m + 1) := by
      rw [Int.repr, String.toList_append, Nat.toList_repr]
      rfl
    have hliteral := Literal.minus (isDegree_decimal h)
    rw [Int.natAbs_negSucc, placeValue_decimal] at hliteral
    rw [htext]
    exact hliteral

lemma toInt_ofInt {n : ℤ} (h : n.natAbs ≤ maxNumeral) : (Int64.ofInt n).toInt = n := by
  rw [maxNumeral] at h
  exact Int64.toInt_ofInt_of_le (by omega) (by omega)

lemma map_signed_eq_some_iff (s : Char) {ds : List Char} {x : Int64} :
    signed s <$> Text.numeral? ds = some x ↔
      IsDegree ds ∧ x.toInt = if s = '-' then -(placeValue ds : ℤ) else placeValue ds := by
  rw [Option.map_eq_map, Option.map_eq_some_iff]
  simp only [numeral?_eq_some_iff]
  constructor
  · rintro ⟨_, ⟨hds, rfl⟩, rfl⟩
    exact ⟨hds, Term.toInt_signed s (placeValue_le hds)⟩
  · rintro ⟨hds, hx⟩
    refine ⟨_, ⟨hds, rfl⟩, ?_⟩
    rw [← Int64.toInt_inj, Term.toInt_signed s (placeValue_le hds), hx]

lemma read?_eq_some_iff {cs : List Char} {x : Int64} : read? cs = some x ↔ Literal cs x.toInt := by
  rw [read?.eq_def]
  split
  case h_1 ds =>
    rw [literal_minus_iff]
    exact map_signed_eq_some_iff '-'
  case h_2 hne =>
    rw [literal_iff hne]
    exact map_signed_eq_some_iff '+'

lemma read_eq_ok_iff {s : String} {x : Int64} : read s = .ok x ↔ Literal s.toList x.toInt := by
  rw [← read?_eq_some_iff, read]
  cases read? s.toList <;> simp

lemma read_of_literal {s : String} {n : ℤ} (h : Literal s.toList n) :
    read s = .ok (.ofInt n) := by
  rw [read_eq_ok_iff, toInt_ofInt h.natAbs_le]
  exact h

lemma read_eq_error_iff {s : String} {e : Error} :
    read s = .error e ↔
      e = .argument ⟨.unsupportedArgument, []⟩ ∧ ∀ n, ¬ Literal s.toList n := by
  constructor
  · intro h
    refine ⟨read_error h, ?_⟩
    intro n hn
    rw [read_of_literal hn] at h
    cases h
  · rintro ⟨rfl, hn⟩
    cases h : read s with
    | ok x => exact (hn _ (read_eq_ok_iff.mp h)).elim
    | error e => rw [read_error h, Failure.plain]

def number? (ds : List Char) : Option ℤ :=
  if 0 < ds.length ∧ ds.all Char.isDigit then some (placeValue ds) else none

def int64? (n : ℤ) : Option Int64 :=
  if Int64.minValue.toInt ≤ n ∧ n ≤ Int64.maxValue.toInt then some (.ofInt n) else none

/-- The conversion by itself: a sign of either kind or none, and digits without a bound on how many
there are. It fails on other texts, and on numbers that 64 bits do not hold. -/
def convert? : List Char → Option Int64
  | '+' :: ds => number? ds >>= int64?
  | '-' :: ds => number? ds >>= fun n => int64? (-n)
  | ds => number? ds >>= int64?

lemma number?_of_isDegree {ds : List Char} (h : IsDegree ds) :
    number? ds = some (placeValue ds : ℤ) := by
  obtain ⟨hpos, -, hds⟩ := isDegree_iff.mp h
  exact if_pos ⟨hpos, hds⟩

lemma int64?_of_natAbs_le {n : ℤ} (h : n.natAbs ≤ maxNumeral) : int64? n = some (.ofInt n) := by
  rw [maxNumeral] at h
  rw [int64?, if_pos]
  rw [Int64.toInt_minValue, Int64.toInt_maxValue]
  omega

lemma Literal.convert?_eq {cs : List Char} {n : ℤ} (h : Literal cs n) :
    convert? cs = some (.ofInt n) := by
  have hle := h.natAbs_le
  cases h with
  | @plain ds hds =>
    rw [convert?.eq_def]
    split
    · exact (not_isDegree_cons (by decide) _ hds).elim
    · exact (not_isDegree_cons (by decide) _ hds).elim
    · rw [number?_of_isDegree hds]
      exact int64?_of_natAbs_le hle
  | minus hds =>
    rw [convert?, number?_of_isDegree hds]
    exact int64?_of_natAbs_le hle

/-- The arguments are the literals with their numbers, and any other text is unsupported. The
conversion of a literal never fails, and the decimal text of a number in range is a literal. -/
theorem read_accepts_literals :
    (∀ (s : String) (x : Int64), read s = .ok x ↔ Literal s.toList x.toInt) ∧
    (∀ (s : String) (n : ℤ), Literal s.toList n →
      n.natAbs ≤ 999999999 ∧ convert? s.toList = some (.ofInt n) ∧ read s = .ok (.ofInt n)) ∧
    (∀ (s : String) (e : Error), read s = .error e ↔
      e = .argument ⟨.unsupportedArgument, []⟩ ∧ ∀ n, ¬ Literal s.toList n) ∧
    ∀ n : ℤ, n.natAbs ≤ 999999999 → ∃ x, read (toString n) = .ok x ∧ x.toInt = n := by
  refine ⟨fun s x => read_eq_ok_iff, ?_, fun s e => read_eq_error_iff, ?_⟩
  · intro s n h
    exact ⟨h.natAbs_le, h.convert?_eq, read_of_literal h⟩
  · intro n h
    exact ⟨_, read_of_literal (literal_toString h), toInt_ofInt h⟩

theorem read_accepts_padded_and_written_literals :
    (Literal "-007".toList (-7) ∧ convert? "-007".toList = some (-7) ∧ read "-007" = .ok (-7)) ∧
    (-999999999 : ℤ).natAbs ≤ 999999999 ∧
      ∃ x, read (toString (-999999999 : ℤ)) = .ok x ∧ x.toInt = -999999999 := by
  obtain ⟨-, hliteral, -, htext⟩ := read_accepts_literals
  have hdigits : IsDegree ['0', '0', '7'] := isDegree_iff.mpr (by decide)
  have hpadded : Literal "-007".toList (-7) := .minus hdigits
  obtain ⟨-, hconvert, hread⟩ := hliteral "-007" (-7) hpadded
  exact ⟨⟨hpadded, hconvert, hread⟩, by decide, htext _ (by decide)⟩

end Polycalc.Argument
