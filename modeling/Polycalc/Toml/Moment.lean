import Polycalc.Toml.Reader

namespace Polycalc.Toml.Moment

open Reader

def number (digits low high : Nat) : Reader Nat := do
  let ds ← (List.replicate digits ()).mapM fun _ => satisfy Char.isDigit
  let n := Nat.ofDigitChars 10 ds 0
  guard (low ≤ n ∧ n ≤ high)
  return n

def IsLeapYear (y : Nat) : Prop := y % 4 = 0 ∧ (y % 100 ≠ 0 ∨ y % 400 = 0)

instance : DecidablePred IsLeapYear := fun y =>
  inferInstanceAs (Decidable (y % 4 = 0 ∧ (y % 100 ≠ 0 ∨ y % 400 = 0)))

def daysInMonth (y m : Nat) : Nat :=
  if m = 2 then if IsLeapYear y then 29 else 28
  else if m ∈ [4, 6, 9, 11] then 30
  else 31

def date : Reader Unit := do
  let year ← number 4 0 9999
  char '-'
  let month ← number 2 1 12
  char '-'
  let _ ← number 2 1 (daysInMonth year month)

def time : Reader Unit := do
  let _ ← number 2 0 23
  char ':'
  let _ ← number 2 0 59
  char ':'
  let _ ← number 2 0 60
  let _ ← optional (char '.' *> takeWhile1 Char.isDigit)

def offset : Reader Unit := do
  if (← satisfy fun c => c ∈ ['Z', 'z', '+', '-']) ∈ ['+', '-'] then
    let _ ← number 2 0 23
    char ':'
    let _ ← number 2 0 59

def timeOfDate : Reader Unit := do
  let _ ← satisfy fun c => c ∈ ['T', 't', ' ']
  time
  let _ ← optional offset

def moment : Reader Unit := do
  (do date; let _ ← optional timeOfDate) <|> time

end Polycalc.Toml.Moment
