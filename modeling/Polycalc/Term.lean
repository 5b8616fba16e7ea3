/-! Arithmetic wraps: degrees modulo `2 ^ 32`, coefficients and values modulo `2 ^ 64`, signed. -/

namespace Polycalc

structure Term where
  degree : UInt32
  coefficient : Int64
  deriving DecidableEq

namespace Term

def constant (c : Int64) : Term := ⟨0, c⟩

def IsZero (t : Term) : Prop := t.coefficient = 0

instance : DecidablePred IsZero := fun t => inferInstanceAs (Decidable (t.coefficient = 0))

instance : Mul Term := ⟨fun s t => ⟨s.degree + t.degree, s.coefficient * t.coefficient⟩⟩

@[simp] theorem degree_mul (s t : Term) : (s * t).degree = s.degree + t.degree := rfl

@[simp] theorem coefficient_mul (s t : Term) :
    (s * t).coefficient = s.coefficient * t.coefficient := rfl

def power (x : Int64) (n : Nat) : Int64 :=
  if n = 0 then 1
  else
    let half := power (x * x) (n / 2)
    if n % 2 = 0 then half else half * x
termination_by n
decreasing_by omega

theorem sq_pow (x : Int64) (n : Nat) : (x * x) ^ n = x ^ (2 * n) := by
  induction n with
  | zero => rfl
  | succ n ih =>
    rw [Int64.pow_succ, ih, Nat.mul_succ, Int64.pow_succ, Int64.pow_succ, Int64.mul_assoc]

theorem power_eq_pow (x : Int64) (n : Nat) : power x n = x ^ n := by
  fun_induction power x n with
  | case1 => rfl
  | case2 x n _ half hn ih => rw [show half = _ from ih, sq_pow]; congr; omega
  | case3 x n _ half hn ih =>
    rw [show half = _ from ih, sq_pow, ← Int64.pow_succ]; congr; omega

def evaluate (t : Term) (x : Int64) : Int64 := t.coefficient * power x t.degree.toNat

end Term

end Polycalc
