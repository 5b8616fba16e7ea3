import Polycalc.Failure
import Polycalc.Term
import Polycalc.Text

namespace Polycalc.Term

def magnitude? : List Char → Option Nat
  | '0' :: _ => none
  | ds => Text.numeral? ds

def coefficient? : List Char → Option Int64
  | '+' :: ds => Int64.ofNat <$> magnitude? ds
  | '-' :: ds => (-Int64.ofNat ·) <$> magnitude? ds
  | _ => none

def readCoefficient (literal : List Char) : Except Failure Int64 :=
  match coefficient? literal with
  | some c => .ok c
  | none => .error (.about .badCoefficient literal)

def readFactor (run before : List Char) : Except Failure Int64 :=
  if before.getLast? = some '*' then readCoefficient before.dropLast
  else .error (.about .misplacedTimes run)

def readPower (run after : List Char) : Except Failure UInt32 :=
  match after with
  | '^' :: ds =>
    match Text.numeral? ds with
    | some d => .ok (.ofNat d)
    | none => .error (.about .badDegree run)
  | _ => .error (.about .misplacedCaret run)

/-- A single character before `x` counts as a sign if it is one byte long, and only `-` negates. -/
def unit? : List Char → Option Int64
  | [c] => if c.toNat < 128 then some (if c = '-' then -1 else 1) else none
  | _ => none

def read (run : List Char) : Except Failure Term :=
  match run.span (· != 'x') with
  | (_, []) => .constant <$> readCoefficient run
  | (before, _ :: after) => do
    let degree ← if after.isEmpty then pure 1 else readPower run after
    let coefficient ← match unit? before with
      | some c => pure c
      | none => readFactor run before
    return ⟨degree, coefficient⟩

end Polycalc.Term
