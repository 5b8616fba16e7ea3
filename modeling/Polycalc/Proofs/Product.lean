import Mathlib.Tactic.Common
import Polycalc.Proofs.Collect

namespace Polycalc

namespace Term

lemma mul_assoc (s t u : Term) : s * t * u = s * (t * u) := by
  change Term.mk _ _ = Term.mk _ _
  rw [degree_mul, coefficient_mul, degree_mul, coefficient_mul, UInt32.add_assoc, Int64.mul_assoc]

lemma mul_comm (s t : Term) : s * t = t * s := by
  change Term.mk _ _ = Term.mk _ _
  rw [UInt32.add_comm, Int64.mul_comm]

@[simp] lemma mul_one (t : Term) : t * constant 1 = t := by
  change Term.mk (t.degree + 0) (t.coefficient * 1) = t
  rw [UInt32.add_zero, Int64.mul_one]

@[simp] lemma one_mul (t : Term) : constant 1 * t = t := by
  change Term.mk (0 + t.degree) (1 * t.coefficient) = t
  rw [UInt32.zero_add, Int64.one_mul]

end Term

namespace Polynomial

def products (ts us : List Term) : List Term := ts.flatMap fun s => us.map (s * ·)

def expand : List (List Term) → List Term
  | [] => [.constant 1]
  | ts :: r => products ts (expand r)

@[simp] lemma total_products (f : Term → Int64) (ts us : List Term) :
    total f (products ts us) = total (fun s => total (fun t => f (s * t)) us) ts := by
  rw [products, total_flatMap]
  congr 1
  funext s
  exact total_map f (s * ·) us

lemma products_assoc (ts us vs : List Term) :
    products (products ts us) vs = products ts (products us vs) := by
  simp only [products, List.flatMap_assoc, List.map_flatMap, List.flatMap_map, List.map_map]
  congr 1
  funext s
  congr 1
  funext t
  exact List.map_congr_left fun u _ => Term.mul_assoc s t u

@[simp] lemma products_one (us : List Term) : products [.constant 1] us = us := by
  rw [products, List.flatMap_singleton]
  simp only [Term.one_mul, List.map_id']

@[simp] lemma products_one_right (ts : List Term) : products ts [.constant 1] = ts := by
  simp only [products, List.map_cons, List.map_nil, Term.mul_one, List.flatMap_singleton']

lemma IsAdditive.mul_left {f : Term → Int64} (hf : IsAdditive f) (us : List Term) :
    IsAdditive fun s => total (fun t => f (s * t)) us := by
  intro d a b
  induction us with
  | nil => rfl
  | cons t us ih =>
    have hmul : f (⟨d, a + b⟩ * t) = f (⟨d, a⟩ * t) + f (⟨d, b⟩ * t) := by
      change f ⟨_, (a + b) * t.coefficient⟩ = _
      rw [Int64.add_mul, hf]
      rfl
    simp only [total_cons] at ih ⊢
    rw [ih, hmul]
    grind

lemma total_products_collect {f : Term → Int64} (hf : IsAdditive f) (ts us : List Term) :
    total f (products (collect ts).terms us) = total f (products ts us) := by
  rw [total_products, total_products, total_collect (hf.mul_left us)]

lemma mul_eq_collect (p q : Polynomial) : p * q = collect (products p.terms q.terms) := rfl

lemma total_foldl_mul {f : Term → Int64} (hf : IsAdditive f) (p : Polynomial)
    (qs : List Polynomial) :
    total f (qs.foldl (· * ·) p).terms = total f (products p.terms (expand (qs.map terms))) := by
  induction qs generalizing p with
  | nil =>
    rw [List.map_nil, expand, products_one_right]
    rfl
  | cons q qs ih =>
    rw [List.foldl_cons, ih, mul_eq_collect, total_products_collect hf, products_assoc]
    rfl

lemma isCanonical_one : one.IsCanonical := trivial

lemma isCanonical_foldl_mul {p : Polynomial} (hp : p.IsCanonical) (qs : List Polynomial) :
    (qs.foldl (· * ·) p).IsCanonical := by
  induction qs generalizing p with
  | nil => exact hp
  | cons q qs ih => exact ih (isCanonical_collect _)

end Polynomial

end Polycalc
