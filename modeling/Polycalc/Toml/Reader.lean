namespace Polycalc.Toml

abbrev Reader (α : Type) := StateT (List Char) Option α

namespace Reader

variable {α : Type}

def peek? : Reader (Option Char) := fun cs => some (cs.head?, cs)

def satisfy (p : Char → Bool) : Reader Char
  | [] => none
  | c :: r => if p c then some (c, r) else none

def char (c : Char) : Reader Unit := (fun _ => ()) <$> satisfy (· == c)

def exactly (s : String) : Reader Unit := s.toList.forM char

def takeWhile (p : Char → Bool) : Reader (List Char) := fun cs =>
  some (cs.takeWhile p, cs.dropWhile p)

def takeWhile1 (p : Char → Bool) : Reader (List Char) := do
  let cs ← takeWhile p
  guard (!cs.isEmpty)
  return cs

def atEnd : Reader Unit
  | [] => some ((), [])
  | _ :: _ => none

def manyUpTo (r : Reader α) : Nat → Reader (List α)
  | 0 => pure []
  | n + 1 => (do return (← r) :: (← manyUpTo r n)) <|> pure []

def many (r : Reader α) : Reader (List α) := fun cs =>
  -- each part takes a character at least
  manyUpTo r cs.length cs

def separated1 (r : Reader α) (separator : Reader Unit) : Reader (List α) := do
  return (← r) :: (← many (separator *> r))

def separated (r : Reader α) (separator : Reader Unit) : Reader (List α) :=
  separated1 r separator <|> pure []

def run? (r : Reader α) (cs : List Char) : Option α := (·.1) <$> (r <* atEnd) cs

end Reader

namespace Space

open Reader

def isSpace (c : Char) : Bool := c == ' ' || c == '\t'

def isPrintable (c : Char) : Bool := c == '\t' || (0x20 ≤ c.toNat && c.toNat != 0x7F)

def spaces : Reader Unit := (fun _ => ()) <$> takeWhile isSpace

def newline : Reader Unit := char '\n' <|> exactly "\r\n"

def comment : Reader Unit := do
  char '#'
  let _ ← takeWhile isPrintable

def lineEnd : Reader Unit := newline <|> atEnd

def restOfLine : Reader Unit := do
  spaces
  let _ ← optional comment
  lineEnd

def blank : Reader Unit := do
  let _ ← many ((fun _ => ()) <$> takeWhile1 isSpace <|> newline <|> comment)

end Space

end Polycalc.Toml
