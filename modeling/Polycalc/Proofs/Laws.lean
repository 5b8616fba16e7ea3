import Mathlib.Data.List.Perm.Basic
import Polycalc.Proofs.Product

namespace Polycalc.Polynomial

instance : Append Polynomial where
  append p q :=
    { terms := p.terms ++ q.terms
      nonzero := List.forall_mem_append.mpr ⟨p.nonzero, q.nonzero⟩ }

@[simp] lemma terms_append (p q : Polynomial) : (p ++ q).terms = p.terms ++ q.terms := rfl

lemma collect_congr {ts us : List Term} (h : ∀ f, IsAdditive f → total f ts = total f us) :
    collect ts = collect us := by
  apply (isCanonical_collect ts).eq_of_coefficientSum (isCanonical_collect us)
  intro d
  rw [coefficientSum_collect, coefficientSum_collect]
  exact h _ (isAdditive_coefficientAt d)

lemma collect_perm {ts us : List Term} (h : ts.Perm us) : collect ts = collect us := by
  apply collect_congr
  intro f _
  exact total_perm h f

lemma collect_append_collect (ts us : List Term) :
    collect ((collect ts).terms ++ (collect us).terms) = collect (ts ++ us) := by
  apply collect_congr
  intro f hf
  simp only [total_append, total_collect hf]

lemma collect_products_collect (ts us : List Term) :
    collect (products (collect ts).terms us) = collect (products ts us) := by
  apply collect_congr
  intro f hf
  exact total_products_collect hf ts us

lemma products_perm (ts us : List Term) : (products ts us).Perm (products us ts) := by
  induction ts with
  | nil => simp [products]
  | cons s ts ih =>
    have hswap : us.map (s * ·) = us.map (· * s) := by simp only [Term.mul_comm]
    rw [products, List.flatMap_cons, hswap]
    apply (ih.append_left _).trans
    exact List.map_append_flatMap_perm us (· * s) _

lemma products_append (ts us vs : List Term) :
    products (ts ++ us) vs = products ts vs ++ products us vs := List.flatMap_append

theorem mul_comm (p q : Polynomial) : p * q = q * p := collect_perm (products_perm _ _)

lemma mul_mul_eq_collect (p q r : Polynomial) :
    p * q * r = collect (products (products p.terms q.terms) r.terms) :=
  collect_products_collect _ _

theorem mul_assoc (p q r : Polynomial) : p * q * r = p * (q * r) := by
  calc p * q * r
      = collect (products (products p.terms q.terms) r.terms) := mul_mul_eq_collect p q r
    _ = collect (products p.terms (products q.terms r.terms)) := by rw [products_assoc]
    _ = collect (products (products q.terms r.terms) p.terms) := collect_perm (products_perm _ _)
    _ = q * r * p := (mul_mul_eq_collect q r p).symm
    _ = p * (q * r) := mul_comm _ _

theorem mul_right_comm (p q r : Polynomial) : p * q * r = p * r * q := by
  rw [mul_assoc, mul_comm q, mul_assoc]

lemma foldl_mul_perm {ps qs : List Polynomial} (h : ps.Perm qs) (p : Polynomial) :
    ps.foldl (· * ·) p = qs.foldl (· * ·) p := by
  apply h.foldl_eq'
  intro q _ r _ s
  exact mul_right_comm s q r

theorem mul_one (p : Polynomial) : p * one = p.simplify :=
  congrArg collect (products_one_right p.terms)

theorem one_mul (p : Polynomial) : one * p = p.simplify := congrArg collect (products_one p.terms)

theorem simplify_mul (p q : Polynomial) : p.simplify * q = p * q := collect_products_collect _ _

theorem append_mul (p q r : Polynomial) : (p ++ q) * r = (p * r ++ q * r).simplify := by
  rw [simplify, terms_append, mul_eq_collect, mul_eq_collect, mul_eq_collect, terms_append,
    products_append, collect_append_collect]

/-- Multiplication is commutative and associative, multiplying by one simplifies, a factor may be
simplified first, and joined terms may be multiplied apart. -/
theorem multiplication_laws (p q r : Polynomial) :
    p * q = q * p ∧
    p * q * r = p * (q * r) ∧
    p * one = p.simplify ∧
    p.simplify * q = p * q ∧
    (p ++ q) * r = (p * r ++ q * r).simplify :=
  ⟨mul_comm p q, mul_assoc p q r, mul_one p, simplify_mul p q, append_mul p q r⟩

end Polycalc.Polynomial
