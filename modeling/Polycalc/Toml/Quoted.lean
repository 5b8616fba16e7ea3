import Polycalc.Text
import Polycalc.Toml.Reader

namespace Polycalc.Toml.Quoted

open Reader Space

def scalar? (n : Nat) : Option Char :=
  if h : n.isValidChar then some (Char.ofNatAux n h) else none

def codePoint (digits : Nat) : Reader Char := do
  let ds ← (List.replicate digits ()).mapM fun _ => satisfy fun c => (Text.hexDigit? c).isSome
  match Text.hexNumber? ds >>= scalar? with
  | some c => return c
  | none => failure

def escape : Reader Char := do
  char '\\'
  match ← satisfy fun _ => true with
  | 'b' => return '\x08'
  | 't' => return '\t'
  | 'n' => return '\n'
  | 'f' => return '\x0c'
  | 'r' => return '\r'
  | '"' => return '"'
  | '\\' => return '\\'
  | 'u' => codePoint 4
  | 'U' => codePoint 8
  | _ => failure

def basicChar : Reader Char :=
  satisfy (fun c => isPrintable c && c != '"' && c != '\\') <|> escape

def literalChar (quote : Char) : Reader Char := satisfy fun c => isPrintable c && c != quote

def quoted (quote : Char) (part : Reader Char) : Reader String := do
  char quote
  let cs ← many part
  char quote
  return String.ofList cs

def lineFeed : Reader Char := (fun _ => '\n') <$> newline

def joint : Reader Unit := do
  char '\\'
  spaces
  newline
  let _ ← many ((fun _ => ()) <$> takeWhile1 isSpace <|> newline)

def innerQuotes (quote : Char) : Reader (List Char) := do
  let qs ← takeWhile1 (· == quote)
  guard (qs.length ≤ 2)
  return qs

def closingQuotes (quote : Char) : Reader (List Char) := do
  let qs ← takeWhile1 (· == quote)
  guard (3 ≤ qs.length ∧ qs.length ≤ 5)
  return qs.drop 3

def multiline (quote : Char) (part : Reader (List Char)) : Reader String := do
  exactly (String.ofList [quote, quote, quote])
  let _ ← optional newline
  let cs ← many (part <|> innerQuotes quote)
  return String.ofList (cs.flatten ++ (← closingQuotes quote))

def basic : Reader String := quoted '"' basicChar

def literal : Reader String := quoted '\x27' (literalChar '\x27')

def basicPart : Reader (List Char) :=
  (fun _ => []) <$> joint <|> (fun c => [c]) <$> (basicChar <|> lineFeed)

def literalPart : Reader (List Char) := (fun c => [c]) <$> (literalChar '\x27' <|> lineFeed)

def text : Reader String :=
  multiline '"' basicPart <|> basic <|> multiline '\x27' literalPart <|> literal

end Polycalc.Toml.Quoted
