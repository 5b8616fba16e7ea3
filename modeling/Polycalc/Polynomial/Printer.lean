import Polycalc.Polynomial
import Polycalc.Text

namespace Polycalc

namespace Term

def IsNegative (t : Term) : Prop := t.coefficient < 0

instance : DecidablePred IsNegative := fun t => inferInstanceAs (Decidable (t.coefficient < 0))

def magnitude (t : Term) : Nat := t.coefficient.toInt.natAbs

def renderPower (d : UInt32) : List Char :=
  if d = 0 then [] else if d = 1 then ['x'] else 'x' :: '^' :: Text.decimal d.toNat

def renderUnsigned (t : Term) : List Char :=
  if t.degree = 0 then Text.decimal t.magnitude
  else if t.magnitude = 1 then renderPower t.degree
  else Text.decimal t.magnitude ++ '*' :: renderPower t.degree

end Term

namespace Polynomial

def renderFirst (t : Term) : List Char :=
  if t.IsNegative then '-' :: t.renderUnsigned else t.renderUnsigned

def renderNext (t : Term) : List Char :=
  ' ' :: (if t.IsNegative then '-' else '+') :: ' ' :: t.renderUnsigned

def renderTerms : List Term → List Char
  | [] => ['0']
  | t :: r => renderFirst t ++ r.flatMap renderNext

def render (p : Polynomial) : String := String.ofList (renderTerms p.terms)

end Polynomial

end Polycalc
