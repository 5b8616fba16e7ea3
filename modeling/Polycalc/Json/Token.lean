import Polycalc.Json.Quoted

namespace Polycalc.Json

inductive Token where
  | openArray
  | closeArray
  | openObject
  | closeObject
  | comma
  | colon
  | null
  | boolean (b : Bool)
  | number
  | string (s : Option String)

namespace Token

def isSpace (c : Char) : Bool := c = ' ' || c = '\t' || c = '\n' || c = '\r'

def afterDigits? : List Char → Option (List Char)
  | c :: r => if c.isDigit then some (r.dropWhile Char.isDigit) else none
  | [] => none

def afterExponent? : List Char → Option (List Char)
  | e :: r =>
    if e = 'e' ∨ e = 'E' then
      match r with
      | '+' :: ds | '-' :: ds => afterDigits? ds
      | ds => afterDigits? ds
    else some (e :: r)
  | [] => some []

def afterFraction? : List Char → Option (List Char)
  | '.' :: r => afterDigits? r >>= afterExponent?
  | r => afterExponent? r

def afterUnsigned? : List Char → Option (List Char)
  | '0' :: r => afterFraction? r
  | r => afterDigits? r >>= afterFraction?

def next? : List Char → Option (Token × List Char)
  | '[' :: r => some (openArray, r)
  | ']' :: r => some (closeArray, r)
  | '\x7b' :: r => some (openObject, r)
  | '\x7d' :: r => some (closeObject, r)
  | ',' :: r => some (comma, r)
  | ':' :: r => some (colon, r)
  | 'n' :: 'u' :: 'l' :: 'l' :: r => some (null, r)
  | 't' :: 'r' :: 'u' :: 'e' :: r => some (boolean true, r)
  | 'f' :: 'a' :: 'l' :: 's' :: 'e' :: r => some (boolean false, r)
  | '"' :: r => (Quoted.pieces? r).map fun (ps, rest) =>
    (string ((Quoted.decode? ps).map String.ofList), rest)
  | '-' :: r => (afterUnsigned? r).map (number, ·)
  | r => (afterUnsigned? r).map (number, ·)

theorem length_of_afterDigits? {cs r : List Char} (h : afterDigits? cs = some r) :
    r.length < cs.length := by
  match cs with
  | [] => simp [afterDigits?] at h
  | c :: cs =>
    by_cases hc : c.isDigit <;> simp [afterDigits?, hc] at h
    subst h
    exact Nat.lt_succ_of_le (List.dropWhile_sublist _).length_le

theorem length_of_afterExponent? {cs r : List Char} (h : afterExponent? cs = some r) :
    r.length ≤ cs.length := by
  unfold afterExponent? at h
  split at h
  · split at h
    · split at h <;> have := length_of_afterDigits? h <;> simp <;> omega
    · simp at h; simp [← h]
  · simp at h; simp [← h]

theorem length_of_afterFraction? {cs r : List Char} (h : afterFraction? cs = some r) :
    r.length ≤ cs.length := by
  unfold afterFraction? at h
  split at h
  · obtain ⟨_, hd, he⟩ := Option.bind_eq_some_iff.mp h
    have := length_of_afterDigits? hd
    have := length_of_afterExponent? he
    simp; omega
  · exact length_of_afterExponent? h

theorem length_of_afterUnsigned? {cs r : List Char} (h : afterUnsigned? cs = some r) :
    r.length < cs.length := by
  unfold afterUnsigned? at h
  split at h
  · have := length_of_afterFraction? h
    simp; omega
  · obtain ⟨_, hd, hf⟩ := Option.bind_eq_some_iff.mp h
    have := length_of_afterDigits? hd
    have := length_of_afterFraction? hf
    omega

theorem length_of_next? {cs r : List Char} {t : Token} (h : next? cs = some (t, r)) :
    r.length < cs.length := by
  unfold next? at h
  split at h
  case h_10 =>
    simp only [Option.map_eq_some_iff, Prod.mk.injEq, Prod.exists] at h
    obtain ⟨_, _, hp, _, rfl⟩ := h
    have := Quoted.length_of_pieces? hp
    simp; omega
  case h_11 =>
    simp only [Option.map_eq_some_iff, Prod.mk.injEq] at h
    obtain ⟨_, hu, _, rfl⟩ := h
    have := length_of_afterUnsigned? hu
    simp; omega
  case h_12 =>
    simp only [Option.map_eq_some_iff, Prod.mk.injEq] at h
    obtain ⟨_, hu, _, rfl⟩ := h
    exact length_of_afterUnsigned? hu
  all_goals
    simp only [Option.some.injEq, Prod.mk.injEq] at h
    simp only [← h.2, List.length_cons]
    omega

def ofText? : List Char → Option (List Token)
  | [] => some []
  | c :: r =>
    if isSpace c then ofText? r
    else match h : next? (c :: r) with
      | none => none
      | some (t, rest) =>
        have := length_of_next? h
        (t :: ·) <$> ofText? rest
termination_by cs => cs.length
decreasing_by
  · exact Nat.lt_succ_self _
  · assumption

end Token

end Polycalc.Json
