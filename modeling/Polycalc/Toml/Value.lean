import Polycalc.Toml.Moment
import Polycalc.Toml.Number
import Polycalc.Toml.Quoted
import Polycalc.Toml.Table

namespace Polycalc.Toml

open Reader Space

namespace Key

def isBareChar (c : Char) : Bool := c.isAlphanum || c == '_' || c == '-'

def simple : Reader String :=
  Quoted.basic <|> Quoted.literal <|> String.ofList <$> takeWhile1 isBareChar

def dotted : Reader (List String × String) := do
  let keys ← separated1 (spaces *> simple <* spaces) (char '.')
  guard (keys.length < 80)
  match keys.getLast? with
  | some key => return (keys.dropLast, key)
  | none => failure

end Key

namespace Value

def checked (r : Reader Unit) : Reader Value := (fun _ => .other) <$> r

def scalar : Reader Value :=
  .text <$> Quoted.text <|> checked (exactly "true" <|> exactly "false") <|>
    checked Moment.moment <|> checked Number.float <|> .integer <$> Number.integer

def array (element : Reader Value) : Reader Unit := do
  char '['
  let vs ← separated (blank *> element <* blank) (char ',')
  unless vs.isEmpty do
    let _ ← optional (char ',')
  blank
  char ']'

def assignment (v : Reader Value) : Reader ((List String × String) × Value) := do
  let key ← Key.dotted
  char '='
  spaces
  return (key, ← v)

def inlineTable (v : Reader Value) : Reader Unit := do
  char '\x7b'
  let pairs ← separated (assignment v <* spaces) (char ',')
  spaces
  char '\x7d'
  guard (pairs.foldlM (fun t ((path, key), v) => Table.assign t path key v) Table.empty).isSome

def nested : Nat → Reader Value
  | 0 => scalar
  | depth + 1 => do
    match ← peek? with
    | some '[' => checked (array (nested depth))
    | some '\x7b' => checked (inlineTable (nested depth))
    | _ => scalar

def reader : Reader Value := nested 79

end Value

end Polycalc.Toml
