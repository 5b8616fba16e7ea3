import Polycalc.Failure
import Polycalc.Polynomial
import Polycalc.Term.Reader
import Polycalc.Text

namespace Polycalc

namespace Run

def IsSign (c : Char) : Prop := c = '+' ∨ c = '-'

instance : DecidablePred IsSign := fun c => inferInstanceAs (Decidable (c = '+' ∨ c = '-'))

def cut : List Char → List Char × List (List Char)
  | [] => ([], [])
  | c :: r =>
    let (lead, runs) := cut r
    if IsSign c then ([], (c :: lead) :: runs) else (c :: lead, runs)

def split (cs : List Char) : List (List Char) :=
  match cut cs with
  | ([], runs) => runs
  | _ => []

def withSign : List Char → List Char
  | '-' :: r => '-' :: r
  | cs => '+' :: cs

theorem cut_flatten (cs : List Char) : (cut cs).1 ++ (cut cs).2.flatten = cs := by
  induction cs with
  | nil => rfl
  | cons c r ih => by_cases h : IsSign c <;> simp [cut, h, ih]

theorem cut_of_isSign {c : Char} (h : IsSign c) (r : List Char) :
    cut (c :: r) = ([], (c :: (cut r).1) :: (cut r).2) := by simp [cut, h]

theorem split_flatten {c : Char} (h : IsSign c) (r : List Char) :
    (split (c :: r)).flatten = c :: r := by
  simp [split, cut_of_isSign h, cut_flatten]

end Run

inductive Shape where
  | sum (body : List Char)
  | product (factors : List (List Char))
  deriving DecidableEq

namespace Shape

def IsBodyChar (c : Char) : Prop := c.isDigit ∨ c ∈ ['x', '-', '+', '*', '^']

instance : DecidablePred IsBodyChar := fun c =>
  inferInstanceAs (Decidable (c.isDigit ∨ c ∈ ['x', '-', '+', '*', '^']))

def inside : List Char → Option (List Char × List (List Char))
  | [')'] => some ([], [])
  | ')' :: '*' :: '(' :: r => (inside r).map fun (f, fs) => ([], f :: fs)
  | c :: r => if IsBodyChar c then (inside r).map fun (f, fs) => (c :: f, fs) else none
  | [] => none

def factors? : List Char → Option (List (List Char))
  | '(' :: r => (inside r).map fun (f, fs) => f :: fs
  | _ => none

def ofText (cs : List Char) : Except Failure Shape :=
  if !cs.isEmpty && cs.all (IsBodyChar ·) then .ok (.sum cs)
  else match factors? cs with
    | some fs => .ok (.product fs)
    | none => .error (.plain .unsupportedPolynomial)

end Shape

namespace Polynomial

def readSum (body : List Char) : Except Failure Polynomial :=
  ofTerms <$> (Run.split (Run.withSign body)).mapM Term.read

def readProduct (factors : List (List Char)) : Except Failure Polynomial :=
  factors.foldlM (fun p body => (p * ·) <$> readSum body) one

def readShape : Shape → Except Failure Polynomial
  | .sum body => readSum body
  | .product factors => readProduct factors

def readText (cs : List Char) : Except Failure Polynomial :=
  Shape.ofText (Text.strip cs) >>= readShape

def read (raw : String) : Except Error Polynomial :=
  (readText raw.toList).mapError (.polynomial · raw)

def readCanonical (raw : String) : Except Error Polynomial :=
  if Text.trim raw.toList = ['0'] then .ok zero else read raw

end Polynomial

end Polycalc
