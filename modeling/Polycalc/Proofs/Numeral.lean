import Mathlib.Algebra.Group.Nat.Defs
import Mathlib.Data.List.Basic
import Mathlib.Tactic.Common
import Polycalc.Text

namespace Polycalc.Text

def maxNumeral : ℕ := 999999999

lemma isDigit_toNat {c : Char} (h : c.isDigit) : 48 ≤ c.toNat ∧ c.toNat ≤ 57 := by
  rw [Char.isDigit, Bool.and_eq_true, decide_eq_true_eq, decide_eq_true_eq] at h
  exact h

lemma isBlank_eq_false_of_isDigit {c : Char} (h : c.isDigit) : isBlank c = false := by
  have hc := isDigit_toNat h
  simp [isBlank, blankRanges]
  omega

lemma ofDigitChars_cons (d : Char) (ds : List Char) :
    Nat.ofDigitChars 10 (d :: ds) 0 =
      10 ^ ds.length * (d.toNat - '0'.toNat) + Nat.ofDigitChars 10 ds 0 := by
  rw [Nat.ofDigitChars_cons, Nat.ofDigitChars_eq_ofDigitChars_zero, Nat.mul_zero, Nat.zero_add]

lemma ofDigitChars_lt {ds : List Char} (h : ∀ c ∈ ds, c.isDigit) :
    Nat.ofDigitChars 10 ds 0 < 10 ^ ds.length := by
  induction ds with
  | nil => simp
  | cons c ds ih =>
    have hc := isDigit_toNat (h c List.mem_cons_self)
    have hds := ih fun d hd => h d (List.mem_cons_of_mem c hd)
    have hz : '0'.toNat = 48 := rfl
    have hle : 10 ^ ds.length * (c.toNat - '0'.toNat) ≤ 10 ^ ds.length * 9 :=
      Nat.mul_le_mul_left _ (by omega)
    rw [ofDigitChars_cons, List.length_cons, Nat.pow_succ]
    omega

lemma isDigit_of_mem_decimal {c : Char} {n : ℕ} (h : c ∈ decimal n) : c.isDigit :=
  Nat.isDigit_of_mem_toDigits (by decide) (by decide) h

lemma not_mem_decimal {c : Char} (hc : c.isDigit = false) (n : ℕ) : c ∉ decimal n := by
  intro h
  rw [isDigit_of_mem_decimal h] at hc
  cases hc

lemma decimal_ne_nil (n : ℕ) : decimal n ≠ [] := Nat.toDigits_ne_nil

@[simp] lemma ofDigitChars_decimal (n : ℕ) : Nat.ofDigitChars 10 (decimal n) 0 = n :=
  Nat.ofDigitChars_ten_toDigits

lemma length_decimal_le_iff (n : ℕ) : (decimal n).length ≤ 9 ↔ n ≤ maxNumeral := by
  rw [decimal, Nat.length_toDigits_le_iff (by decide) (by decide), maxNumeral]
  omega

@[simp] lemma isNumeral_decimal_iff (n : ℕ) : IsNumeral (decimal n) ↔ n ≤ maxNumeral := by
  rw [IsNumeral, length_decimal_le_iff]
  constructor
  · exact fun h => h.2.1
  · intro h
    refine ⟨List.length_pos_iff.mpr (decimal_ne_nil n), h, ?_⟩
    exact List.all_eq_true.mpr fun c hc => isDigit_of_mem_decimal hc

@[simp] theorem numeral?_decimal (n : ℕ) :
    numeral? (decimal n) = if n ≤ maxNumeral then some n else none := by
  simp only [numeral?, isNumeral_decimal_iff, ofDigitChars_decimal]

lemma head?_decimal_ne_zero {n : ℕ} (hn : n ≠ 0) : (decimal n).head? ≠ some '0' := by
  induction n using Nat.strongRecOn with
  | ind n ih =>
    rw [decimal, Nat.toDigits_eq_if (by decide)]
    split_ifs with hlt
    · intro h
      exact hn (Nat.digitChar_eq_zero.mp (Option.some.inj h))
    · have hne := ih (n / 10) (by omega) (by omega)
      rw [List.head?_append_of_ne_nil _ Nat.toDigits_ne_nil]
      exact hne

end Polycalc.Text
