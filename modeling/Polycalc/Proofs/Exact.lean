import Mathlib.Algebra.BigOperators.Group.List.Lemmas
import Mathlib.Data.Int.ModEq
import Mathlib.Data.List.ProdSigma
import Polycalc.Proofs.Canonical
import Polycalc.Proofs.Product

/-! Values and coefficients of products as exact integers. Wrapping at every step comes to the same
as reducing the exact integer once, at the end. -/

namespace Polycalc

namespace Exact

lemma ofInt_eq_iff {n : ℤ} {v : Int64} : Int64.ofInt n = v ↔ v.toInt ≡ n [ZMOD 2 ^ 64] := by
  rw [Int64.ofInt_eq_iff_bmod_eq_toInt]
  constructor
  · intro h
    rw [← h]
    exact Int.bmod_emod
  · intro h
    calc n.bmod (2 ^ 64)
        = (n % 2 ^ 64).bmod (2 ^ 64) := (Int.emod_bmod n _).symm
      _ = (v.toInt % 2 ^ 64).bmod (2 ^ 64) := by rw [h]
      _ = v.toInt.bmod (2 ^ 64) := Int.emod_bmod _ _
      _ = v.toInt := v.toInt_bmod

lemma ofInt_pow (a : ℤ) (n : ℕ) : Int64.ofInt (a ^ n) = Int64.ofInt a ^ n := by
  induction n with
  | zero => rw [pow_zero, Int64.pow_zero]; rfl
  | succ n ih => rw [pow_succ, Int64.ofInt_mul, ih, Int64.pow_succ]

lemma ofInt_sum {α : Type} (f : α → ℤ) (l : List α) :
    Int64.ofInt (l.map f).sum = (l.map fun a => Int64.ofInt (f a)).sum := by
  induction l with
  | nil => rfl
  | cons a l ih => simp only [List.map_cons, List.sum_cons, Int64.ofInt_add, ih]

end Exact

open Exact

namespace Term

def exactValue (t : Term) (x : ℤ) : ℤ := t.coefficient.toInt * x ^ t.degree.toNat

lemma evaluate_eq_ofInt (t : Term) (x : Int64) :
    t.evaluate x = Int64.ofInt (t.exactValue x.toInt) := by
  rw [evaluate, power_eq_pow, exactValue, Int64.ofInt_mul, ofInt_pow, Int64.ofInt_toInt,
    Int64.ofInt_toInt]

end Term

namespace Polynomial

def exactValue (p : Polynomial) (x : ℤ) : ℤ := (p.terms.map (·.exactValue x)).sum

lemma evaluate_eq_ofInt (p : Polynomial) (x : Int64) :
    p.evaluate x = Int64.ofInt (p.exactValue x.toInt) := by
  simp only [evaluate_eq_total, total, exactValue, ofInt_sum, Term.evaluate_eq_ofInt]

/-- The value is the exact one, reduced modulo `2 ^ 64` to a signed number, and collecting the
terms first does not change it. -/
theorem evaluate_is_exact (p : Polynomial) (x : Int64) :
    (∀ v : Int64, p.evaluate x = v ↔ v.toInt ≡ p.exactValue x.toInt [ZMOD 2 ^ 64]) ∧
    p.simplify.evaluate x = p.evaluate x := by
  refine ⟨?_, evaluate_simplify p x⟩
  intro v
  rw [evaluate_eq_ofInt, ofInt_eq_iff]

def pairsOfDegree (p q : Polynomial) (d : UInt32) : List (Term × Term) :=
  (p.terms ×ˢ q.terms).filter fun st =>
    (st.1.degree.toNat + st.2.degree.toNat) % 2 ^ 32 = d.toNat

def convolution (p q : Polynomial) (d : UInt32) : ℤ :=
  ((pairsOfDegree p q d).map fun st => st.1.coefficient.toInt * st.2.coefficient.toInt).sum

lemma products_eq_map (ts us : List Term) :
    products ts us = (ts ×ˢ us).map fun st => st.1 * st.2 := by
  simp only [products, SProd.sprod, List.product, List.map_flatMap, List.map_map]
  rfl

lemma coefficientAt_mul (d : UInt32) (s t : Term) :
    coefficientAt d (s * t) = Int64.ofInt
      (if (s.degree.toNat + t.degree.toNat) % 2 ^ 32 = d.toNat then
        s.coefficient.toInt * t.coefficient.toInt else 0) := by
  have hdegree : (s * t).degree = d ↔ (s.degree.toNat + t.degree.toNat) % 2 ^ 32 = d.toNat := by
    rw [← UInt32.toNat_inj, Term.degree_mul, UInt32.toNat_add]
  simp only [coefficientAt, hdegree]
  split_ifs
  · rw [Term.coefficient_mul, Int64.ofInt_mul, Int64.ofInt_toInt, Int64.ofInt_toInt]
  · rfl

lemma coefficient_mul_eq_ofInt (p q : Polynomial) (d : UInt32) :
    (p * q).coefficient d = Int64.ofInt (convolution p q d) := by
  rw [mul_eq_collect, (isCanonical_collect _).coefficient_eq, coefficientSum_collect,
    coefficientSum, products_eq_map, total, List.map_map, convolution, pairsOfDegree]
  simp only [Function.comp_def, coefficientAt_mul, ← ofInt_sum, List.sum_map_ite]
  simp

/-- A product is canonical, and its coefficient at a degree is the sum over all pairs of terms that
have this degree together, whatever wraps on the way. -/
theorem mul_is_convolution (p q : Polynomial) :
    ((p * q).terms.Pairwise fun s t => t.degree < s.degree) ∧
    (∀ t ∈ (p * q).terms, t.coefficient ≠ 0) ∧
    ∀ (d : UInt32) (c : Int64),
      (p * q).coefficient d = c ↔ c.toInt ≡ convolution p q d [ZMOD 2 ^ 64] := by
  refine ⟨(descending_iff_pairwise _).mp (isCanonical_collect _), (p * q).nonzero, ?_⟩
  intro d c
  rw [coefficient_mul_eq_ofInt, ofInt_eq_iff]

end Polynomial

end Polycalc
