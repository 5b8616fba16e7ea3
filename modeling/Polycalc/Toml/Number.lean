import Polycalc.Text
import Polycalc.Toml.Reader

namespace Polycalc.Toml.Number

open Reader

def digits (isDigit : Char → Bool) : Reader (List Char) :=
  separated1 (satisfy isDigit) (char '_' <|> pure ())

def wholeDigits : Reader (List Char) := do
  if (← peek?) == some '0' then
    char '0'
    return ['0']
  else digits Char.isDigit

def minus : Reader Bool :=
  (fun _ => true) <$> char '-' <|> (fun _ => false) <$> char '+' <|> pure false

def signed (negative : Bool) (n : Nat) : Int := if negative then -n else n

def isInt64 (n : Int) : Bool := Int64.minValue.toInt ≤ n && n ≤ Int64.maxValue.toInt

def inBase (base : Nat) (mark : String) : Reader Int := do
  exactly mark
  let ds ← digits fun c => (Text.hexDigit? c).any (· < base)
  return ds.foldl (fun n c => base * n + (Text.hexDigit? c).getD 0) 0

def decimal : Reader Int := do
  let negative ← minus
  return signed negative (Nat.ofDigitChars 10 (← wholeDigits) 0)

def integer : Reader Int := do
  let n ← inBase 16 "0x" <|> inBase 8 "0o" <|> inBase 2 "0b" <|> decimal
  guard (isInt64 n)
  return n

def overflow : Nat := Nat.pow 2 1024 - Nat.pow 2 970

def overflows (ds : List Char) (e : Int) : Bool :=
  let ds := ds.dropWhile (· == '0')
  let places := ds.length + e
  let n := Nat.ofDigitChars 10 ds 0
  -- only numbers of 309 digits need to be worked out
  !ds.isEmpty && 309 ≤ places &&
    (309 < places || overflow * Nat.pow 10 (-e).toNat ≤ n * Nat.pow 10 e.toNat)

def fraction : Reader (List Char) := char '.' *> digits Char.isDigit

def exponent : Reader Int := do
  char 'e' <|> char 'E'
  let negative ← minus
  return signed negative (Nat.ofDigitChars 10 (← digits Char.isDigit) 0)

def tail : Reader (List Char × Int) :=
  (do return (← fraction, ← exponent <|> pure 0)) <|> (do return ([], ← exponent))

def finite : Reader Unit := do
  let negative ← minus
  let whole ← wholeDigits
  let (decimals, e) ← tail
  guard (negative || !overflows (whole ++ decimals) (e - decimals.length))

def special : Reader Unit := do
  let _ ← minus
  exactly "inf" <|> exactly "nan"

def float : Reader Unit := finite <|> special

end Polycalc.Toml.Number
