import Polycalc.Term

namespace Polycalc

structure Polynomial where
  terms : List Term
  nonzero : ∀ t ∈ terms, ¬ t.IsZero
  deriving DecidableEq

namespace Polynomial

@[ext] theorem ext {p q : Polynomial} (h : p.terms = q.terms) : p = q := by
  cases p; cases q; cases h; rfl

def ofTerms (ts : List Term) : Polynomial where
  terms := ts.filter (¬ ·.IsZero)
  nonzero t h := by simpa using (List.mem_filter.mp h).2

@[simp] theorem ofTerms_terms (p : Polynomial) : ofTerms p.terms = p := by
  ext1
  exact List.filter_eq_self.mpr fun t h => by simpa using p.nonzero t h

def zero : Polynomial := ⟨[], by simp⟩

def one : Polynomial := ⟨[.constant 1], by simp [Term.IsZero, Term.constant]⟩

def addTerm (t : Term) : List Term → List Term
  | [] => [t]
  | s :: r =>
    if s.degree < t.degree then t :: s :: r
    else if s.degree = t.degree then ⟨s.degree, t.coefficient + s.coefficient⟩ :: r
    else s :: addTerm t r

def collect (ts : List Term) : Polynomial := ofTerms (ts.foldr addTerm [])

def simplify (p : Polynomial) : Polynomial := collect p.terms

instance : Mul Polynomial := ⟨fun p q => collect (p.terms.flatMap fun s => q.terms.map (s * ·))⟩

def evaluate (p : Polynomial) (x : Int64) : Int64 :=
  p.terms.foldr (fun t sum => t.evaluate x + sum) 0

def Descending : List Term → Prop
  | s :: t :: r => t.degree < s.degree ∧ Descending (t :: r)
  | _ => True

instance decidableDescending : (ts : List Term) → Decidable (Descending ts)
  | [] => .isTrue trivial
  | [_] => .isTrue trivial
  | s :: t :: r =>
    have := decidableDescending (t :: r)
    inferInstanceAs (Decidable (t.degree < s.degree ∧ Descending (t :: r)))

def IsCanonical (p : Polynomial) : Prop := Descending p.terms

instance : DecidablePred IsCanonical := fun p => decidableDescending p.terms

end Polynomial

end Polycalc
