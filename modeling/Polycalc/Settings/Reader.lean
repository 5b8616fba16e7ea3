import Polycalc.Toml.Document

namespace Polycalc

structure Settings where
  simplifyAttempts : Nat
  evaluateAttempts : Nat
  /-- Which messages are logged. No answer depends on it. -/
  logFilter : Option String
  deriving DecidableEq

inductive File where
  | missing
  | unreadable
  | content (bytes : ByteArray)

namespace Settings

open Toml (Item Table)

def default : Settings := ⟨2, 3, none⟩

/-- A request is tried once at least, so the tries that may follow are one fewer than set. -/
def simplifyRetries (s : Settings) : Nat := s.simplifyAttempts - 1

def evaluateRetries (s : Settings) : Nat := s.evaluateAttempts - 1

def attempts? (d : Nat) : Option Item → Option Nat
  | none => some d
  | some (.value (.integer n)) => if 0 ≤ n ∧ n < UInt32.size then some n.toNat else none
  | some _ => none

def filter? : Option Item → Option (Option String)
  | none => some none
  | some (.value (.text s)) => some (some s)
  | some _ => none

def ofTable? (t : Table) : Option Settings := do
  return {
    simplifyAttempts := ← attempts? default.simplifyAttempts (t.get? "simplify_attempts")
    evaluateAttempts := ← attempts? default.evaluateAttempts (t.get? "evaluate_attempts")
    logFilter := ← filter? (t.get? "log_filter") }

def read? (text : String) : Option Settings := Toml.Document.read? text.toList >>= ofTable?

def load : File → Option Settings
  | .missing => some default
  | .unreadable => none
  | .content bytes => String.fromUTF8? bytes >>= read?

end Settings

end Polycalc
