import Polycalc.Store

/-! A cache in front of which calls can be made to fail. A stopped call does not reach the cache
behind; all calls are noted, the latest first. -/

namespace Polycalc

inductive Method where
  | getPolynomial
  | putPolynomial
  | getEvaluation
  | putEvaluation
  deriving DecidableEq

namespace Method

def all : List Method := [getPolynomial, putPolynomial, getEvaluation, putEvaluation]

def name : Method → String
  | getPolynomial => "get_polynomial"
  | putPolynomial => "put_polynomial"
  | getEvaluation => "get_evaluation"
  | putEvaluation => "put_evaluation"

def ofName? (s : String) : Option Method := all.find? (·.name == s)

end Method

/-- How many calls are let through, and how many after them are stopped. -/
structure Fault where
  skip : Nat
  times : Nat
  deriving DecidableEq

namespace Fault

def none : Fault := ⟨0, 0⟩

def Stops (f : Fault) : Prop := f.skip = 0 ∧ 0 < f.times

instance : DecidablePred Stops := fun f => inferInstanceAs (Decidable (f.skip = 0 ∧ 0 < f.times))

def rest (f : Fault) : Fault := if 0 < f.skip then ⟨f.skip - 1, f.times⟩ else ⟨0, f.times - 1⟩

end Fault

structure Faults where
  getPolynomial : Fault
  putPolynomial : Fault
  getEvaluation : Fault
  putEvaluation : Fault
  deriving DecidableEq

namespace Faults

def none : Faults := ⟨.none, .none, .none, .none⟩

def get (fs : Faults) : Method → Fault
  | .getPolynomial => fs.getPolynomial
  | .putPolynomial => fs.putPolynomial
  | .getEvaluation => fs.getEvaluation
  | .putEvaluation => fs.putEvaluation

def set (fs : Faults) (f : Fault) : Method → Faults
  | .getPolynomial => { fs with getPolynomial := f }
  | .putPolynomial => { fs with putPolynomial := f }
  | .getEvaluation => { fs with getEvaluation := f }
  | .putEvaluation => { fs with putEvaluation := f }

@[simp] theorem get_set (fs : Faults) (f : Fault) (m n : Method) :
    (fs.set f m).get n = if m = n then f else fs.get n := by cases m <;> cases n <;> rfl

end Faults

structure Call where
  method : Method
  stopped : Bool
  deriving DecidableEq

structure Faulty (σ : Type) where
  inner : σ
  faults : Faults
  calls : List Call

namespace Faulty

variable {σ α : Type}

def reason (m : Method) : String := "injected " ++ m.name

def call (m : Method) (op : Query σ α) : Query (Faulty σ) α := fun s =>
  let fault := s.faults.get m
  let faults := s.faults.set fault.rest m
  if fault.Stops then (.error (reason m), ⟨s.inner, faults, ⟨m, true⟩ :: s.calls⟩)
  else
    let (out, inner) := op s.inner
    (out, ⟨inner, faults, ⟨m, false⟩ :: s.calls⟩)

instance [Cache σ] : Cache (Faulty σ) where
  record? raw := call .getPolynomial (Cache.record? raw)
  putRecord raw record := call .putPolynomial (Cache.putRecord raw record)
  value? raw argument := call .getEvaluation (Cache.value? raw argument)
  putValue raw argument value linked :=
    call .putEvaluation (Cache.putValue raw argument value linked)

end Faulty

end Polycalc
