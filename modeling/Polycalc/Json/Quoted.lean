import Polycalc.Text

/-! Text that is read may give any character by one or two UTF-16 units. Half of a surrogate pair is
well formed but stands for no text. -/

namespace Polycalc.Json.Quoted

open Text (hexNumber?)

def escape (c : Char) : List Char :=
  if c = '"' then ['\\', '"']
  else if c = '\\' then ['\\', '\\']
  else if 32 ≤ c.toNat then [c]
  else if c.toNat = 8 then ['\\', 'b']
  else if c.toNat = 9 then ['\\', 't']
  else if c.toNat = 10 then ['\\', 'n']
  else if c.toNat = 12 then ['\\', 'f']
  else if c.toNat = 13 then ['\\', 'r']
  else ['\\', 'u', '0', '0', Nat.digitChar (c.toNat / 16), Nat.digitChar (c.toNat % 16)]

def encode (cs : List Char) : List Char := '"' :: cs.flatMap escape ++ ['"']

inductive Piece where
  | char (c : Char)
  | unit (n : Nat)

def escaped? : Char → Option Char
  | '"' => some '"'
  | '\\' => some '\\'
  | '/' => some '/'
  | 'b' => some '\x08'
  | 't' => some '\t'
  | 'n' => some '\n'
  | 'f' => some '\x0c'
  | 'r' => some '\r'
  | _ => none

def pieces? : List Char → Option (List Piece × List Char)
  | [] => none
  | '"' :: r => some ([], r)
  | '\\' :: 'u' :: a :: b :: c :: d :: r => do
    let n ← hexNumber? [a, b, c, d]
    let (ps, rest) ← pieces? r
    return (.unit n :: ps, rest)
  | '\\' :: e :: r => do
    let c ← escaped? e
    let (ps, rest) ← pieces? r
    return (.char c :: ps, rest)
  | c :: r =>
    if c.toNat < 32 then none
    else do
      let (ps, rest) ← pieces? r
      return (.char c :: ps, rest)

theorem length_of_pieces? {cs : List Char} {ps : List Piece} {rest : List Char}
    (h : pieces? cs = some (ps, rest)) : rest.length < cs.length := by
  fun_induction pieces? cs generalizing ps rest with
  | case1 => simp at h
  | case2 r => simp at h; simp [← h.2]
  | case3 a b c d r ih =>
    simp only [Option.bind_eq_bind, Option.bind_eq_some_iff, Option.pure_def, Option.some.injEq,
      Prod.mk.injEq, Prod.exists] at h
    obtain ⟨_, _, _, _, hr, _, rfl⟩ := h
    have := ih hr
    simp; omega
  | case4 e r _ ih =>
    simp only [Option.bind_eq_bind, Option.bind_eq_some_iff, Option.pure_def, Option.some.injEq,
      Prod.mk.injEq, Prod.exists] at h
    obtain ⟨_, _, _, _, hr, _, rfl⟩ := h
    have := ih hr
    simp; omega
  | case5 => simp at h
  | case6 c r _ _ _ _ ih =>
    simp only [Option.bind_eq_bind, Option.bind_eq_some_iff, Option.pure_def, Option.some.injEq,
      Prod.mk.injEq, Prod.exists] at h
    obtain ⟨_, _, hr, _, rfl⟩ := h
    have := ih hr
    simp; omega

def IsHigh (n : Nat) : Prop := 0xD800 ≤ n ∧ n < 0xDC00

def IsLow (n : Nat) : Prop := 0xDC00 ≤ n ∧ n < 0xE000

instance : DecidablePred IsHigh := fun n => inferInstanceAs (Decidable (0xD800 ≤ n ∧ n < 0xDC00))

instance : DecidablePred IsLow := fun n => inferInstanceAs (Decidable (0xDC00 ≤ n ∧ n < 0xE000))

def decode? : List Piece → Option (List Char)
  | [] => some []
  | .char c :: r => (c :: ·) <$> decode? r
  | .unit h :: .unit l :: r =>
    if IsHigh h ∧ IsLow l then
      (Char.ofNat (0x10000 + 0x400 * (h - 0xD800) + (l - 0xDC00)) :: ·) <$> decode? r
    else if IsHigh h ∨ IsLow h then none
    else (Char.ofNat h :: ·) <$> decode? (.unit l :: r)
  | .unit h :: r => if IsHigh h ∨ IsLow h then none else (Char.ofNat h :: ·) <$> decode? r

end Polycalc.Json.Quoted
