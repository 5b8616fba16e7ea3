namespace Polycalc.Text

/-- The Unicode property White_Space: 25 code points. -/
def blankRanges : List (Nat × Nat) :=
  [(0x09, 0x0D), (0x20, 0x20), (0x85, 0x85), (0xA0, 0xA0), (0x1680, 0x1680), (0x2000, 0x200A),
    (0x2028, 0x2029), (0x202F, 0x202F), (0x205F, 0x205F), (0x3000, 0x3000)]

def isBlank (c : Char) : Bool := blankRanges.any fun r => r.1 ≤ c.toNat && c.toNat ≤ r.2

def strip (cs : List Char) : List Char := cs.filter (!isBlank ·)

def trim (cs : List Char) : List Char :=
  ((cs.dropWhile isBlank).reverse.dropWhile isBlank).reverse

@[simp] theorem strip_append (cs ds : List Char) : strip (cs ++ ds) = strip cs ++ strip ds :=
  List.filter_append ..

def lineFeed : UInt8 := 10

def carriageReturn : UInt8 := 13

def dropReturn (line : List UInt8) : List UInt8 :=
  if line.getLast? = some carriageReturn then line.dropLast else line

def lines (bytes : List UInt8) : List (List UInt8) :=
  let parts := bytes.splitOn lineFeed
  parts.dropLast.map dropReturn ++ parts.getLast?.toList.filter (· ≠ [])

def decode? (bytes : List UInt8) : Option String := String.fromUTF8? ⟨bytes.toArray⟩

def decimal (n : Nat) : List Char := Nat.toDigits 10 n

def IsNumeral (ds : List Char) : Prop := 0 < ds.length ∧ ds.length ≤ 9 ∧ ds.all Char.isDigit

instance : DecidablePred IsNumeral := fun ds =>
  inferInstanceAs (Decidable (0 < ds.length ∧ ds.length ≤ 9 ∧ ds.all Char.isDigit))

def numeral? (ds : List Char) : Option Nat :=
  if IsNumeral ds then some (Nat.ofDigitChars 10 ds 0) else none

theorem numeral?_eq_some_iff {ds : List Char} {n : Nat} :
    numeral? ds = some n ↔ IsNumeral ds ∧ Nat.ofDigitChars 10 ds 0 = n := by
  by_cases h : IsNumeral ds <;> simp [numeral?, h]

def hexDigit? (c : Char) : Option Nat :=
  if c.isDigit then some (c.toNat - 48)
  else if 'a' ≤ c ∧ c ≤ 'f' then some (c.toNat - 87)
  else if 'A' ≤ c ∧ c ≤ 'F' then some (c.toNat - 55)
  else none

def hexNumber? (ds : List Char) : Option Nat :=
  ds.foldlM (fun n c => (16 * n + ·) <$> hexDigit? c) 0

end Polycalc.Text
