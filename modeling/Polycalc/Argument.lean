import Polycalc.Failure
import Polycalc.Text

namespace Polycalc.Argument

def read? : List Char → Option Int64
  | '-' :: ds => (-Int64.ofNat ·) <$> Text.numeral? ds
  | ds => Int64.ofNat <$> Text.numeral? ds

def read (raw : String) : Except Error Int64 :=
  match read? raw.toList with
  | some x => .ok x
  | none => .error (.argument (.plain .unsupportedArgument))

theorem read_error {raw : String} {e : Error} (h : read raw = .error e) :
    e = .argument (.plain .unsupportedArgument) := by
  rw [read] at h
  split at h <;> cases h
  rfl

end Polycalc.Argument
