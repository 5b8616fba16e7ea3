import Mathlib.Algebra.GroupWithZero.Nat
import Mathlib.Data.List.MinMax
import Mathlib.Order.Nat
import Polycalc.Proofs.Product

namespace Polycalc

namespace Term

lemma pow_add (x : Int64) (m n : ℕ) : x ^ (m + n) = x ^ m * x ^ n := by
  induction n with
  | zero => simp
  | succ n ih => rw [← Nat.add_assoc, Int64.pow_succ, ih, Int64.pow_succ, Int64.mul_assoc]

lemma toNat_degree_mul {s t : Term} (h : s.degree.toNat + t.degree.toNat < UInt32.size) :
    (s * t).degree.toNat = s.degree.toNat + t.degree.toNat := by
  rw [degree_mul, UInt32.toNat_add, Nat.mod_eq_of_lt h]

theorem evaluate_mul {s t : Term} (h : s.degree.toNat + t.degree.toNat < UInt32.size) (x : Int64) :
    (s * t).evaluate x = s.evaluate x * t.evaluate x := by
  simp only [evaluate, power_eq_pow, toNat_degree_mul h, pow_add, coefficient_mul]
  grind

end Term

namespace Polynomial

variable {x : Int64}

lemma total_evaluate_mul {s : Term} {us : List Term}
    (h : ∀ u ∈ us, s.degree.toNat + u.degree.toNat < UInt32.size) :
    total (fun u => (s * u).evaluate x) us = s.evaluate x * total (Term.evaluate · x) us := by
  induction us with
  | nil => simp [total]
  | cons u us ih =>
    obtain ⟨hu, hus⟩ := List.forall_mem_cons.mp h
    simp only [total_cons, ih hus, Term.evaluate_mul hu, Int64.mul_add]

lemma total_evaluate_products {ts us : List Term}
    (h : ∀ s ∈ ts, ∀ u ∈ us, s.degree.toNat + u.degree.toNat < UInt32.size) :
    total (Term.evaluate · x) (products ts us) =
      total (Term.evaluate · x) ts * total (Term.evaluate · x) us := by
  rw [total_products]
  induction ts with
  | nil => simp [total]
  | cons s ts ih =>
    obtain ⟨hs, hts⟩ := List.forall_mem_cons.mp h
    rw [total_cons, total_cons, ih hts, total_evaluate_mul hs, Int64.add_mul]

def largestDegree (p : Polynomial) : ℕ := (p.terms.map fun t => t.degree.toNat).foldr max 0

lemma degree_le_largestDegree {p : Polynomial} {t : Term} (h : t ∈ p.terms) :
    t.degree.toNat ≤ p.largestDegree := by
  change _ ≤ (p.terms.map fun t => t.degree.toNat).foldr max ⊥
  exact List.le_max_of_le (List.mem_map_of_mem h) le_rfl

lemma largestDegree_le {p : Polynomial} {n : ℕ} (h : ∀ t ∈ p.terms, t.degree.toNat ≤ n) :
    p.largestDegree ≤ n := by
  change (p.terms.map fun t => t.degree.toNat).foldr max ⊥ ≤ n
  apply List.max_le_of_forall_le
  simpa using h

lemma degree_of_mem_expand {ps : List Polynomial} {t : Term}
    (hps : (ps.map largestDegree).sum < UInt32.size) (h : t ∈ expand (ps.map terms)) :
    t.degree.toNat ≤ (ps.map largestDegree).sum := by
  induction ps generalizing t with
  | nil => simp_all [expand, Term.constant]
  | cons p ps ih =>
    simp only [List.map_cons, List.sum_cons] at hps ⊢
    simp only [List.map_cons, expand, products, List.mem_flatMap, List.mem_map] at h
    obtain ⟨s, hs, u, hu, rfl⟩ := h
    have hsmall := degree_le_largestDegree hs
    have hrest := ih (by omega) hu
    rw [Term.toNat_degree_mul (by omega)]
    omega

lemma total_evaluate_expand {ps : List Polynomial} (h : (ps.map largestDegree).sum < UInt32.size) :
    total (Term.evaluate · x) (expand (ps.map terms)) = (ps.map (evaluate · x)).prod := by
  induction ps with
  | nil => simp [expand, total, Term.evaluate, Term.constant, Term.power_eq_pow]
  | cons p ps ih =>
    have hrest : (ps.map largestDegree).sum < UInt32.size := by
      simp only [List.map_cons, List.sum_cons] at h
      omega
    have hterms : ∀ s ∈ p.terms, ∀ u ∈ expand (ps.map terms),
        s.degree.toNat + u.degree.toNat < UInt32.size := by
      intro s hs u hu
      have hsmall := degree_le_largestDegree hs
      have hlarge := degree_of_mem_expand hrest hu
      simp only [List.map_cons, List.sum_cons] at h
      omega
    rw [List.map_cons, expand, total_evaluate_products hterms, ih hrest, ← evaluate_eq_total]
    rfl

theorem evaluate_foldl_mul {ps : List Polynomial} (h : (ps.map largestDegree).sum < UInt32.size) :
    (ps.foldl (· * ·) one).evaluate x = (ps.map (evaluate · x)).prod := by
  rw [evaluate_eq_total, total_foldl_mul (isAdditive_evaluate x), ← total_evaluate_expand h]
  congr 1
  exact products_one _

end Polynomial

end Polycalc
