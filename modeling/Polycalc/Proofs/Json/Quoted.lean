import Mathlib.Data.List.Forall2
import Mathlib.Tactic.Common
import Polycalc.Json.Token

namespace Polycalc.Json

def IsPrintable (w : List Char) : Prop := ∀ c ∈ w, 32 ≤ c.toNat

lemma isPrintable_append {v w : List Char} (hv : IsPrintable v) (hw : IsPrintable w) :
    IsPrintable (v ++ w) := List.forall_mem_append.mpr ⟨hv, hw⟩

lemma isPrintable_cons {c : Char} {w : List Char} (hc : 32 ≤ c.toNat) (hw : IsPrintable w) :
    IsPrintable (c :: w) := List.forall_mem_cons.mpr ⟨hc, hw⟩

lemma isPrintable_enclosed {b e : Char} {w : List Char} (hb : 32 ≤ b.toNat) (hw : IsPrintable w)
    (he : 32 ≤ e.toNat) : IsPrintable (b :: w ++ [e]) :=
  isPrintable_append (isPrintable_cons hb hw) (isPrintable_cons he nofun)

namespace Quoted

inductive IsEscape (c : Char) : List Char → Prop
  | plain : c ≠ '"' → c ≠ '\\' → 32 ≤ c.toNat → IsEscape c [c]
  | letter {e : Char} : escaped? e = some c → 32 ≤ e.toNat → IsEscape c ['\\', e]
  | number : c.toNat < 32 → IsEscape c
      ['\\', 'u', '0', '0', Nat.digitChar (c.toNat / 16), Nat.digitChar (c.toNat % 16)]

lemma isEscape_of_toNat {c e : Char} {n : ℕ} (hc : c.toNat = n)
    (hletter : escaped? e = some (Char.ofNat n)) (he : 32 ≤ e.toNat) :
    IsEscape c ['\\', e] := by
  subst hc
  rw [Char.ofNat_toNat] at hletter
  exact .letter hletter he

lemma isEscape_escape (c : Char) : IsEscape c (escape c) := by
  rw [escape]
  split_ifs with hquote hbackslash hplain h8 h9 h10 h12 h13
  · subst hquote
    exact .letter rfl (by decide)
  · subst hbackslash
    exact .letter rfl (by decide)
  · exact .plain hquote hbackslash hplain
  · exact isEscape_of_toNat h8 rfl (by decide)
  · exact isEscape_of_toNat h9 rfl (by decide)
  · exact isEscape_of_toNat h10 rfl (by decide)
  · exact isEscape_of_toNat h12 rfl (by decide)
  · exact isEscape_of_toNat h13 rfl (by decide)
  · exact .number (Nat.lt_of_not_le hplain)

inductive IsPiece : Char → Piece → Prop
  | char (c : Char) : IsPiece c (.char c)
  | unit (c : Char) : c.toNat < 32 → IsPiece c (.unit c.toNat)

lemma hexNumber?_digitChar : ∀ n < 32,
    Text.hexNumber? ['0', '0', Nat.digitChar (n / 16), Nat.digitChar (n % 16)] = some n := by
  decide

lemma pieces?_plain {c : Char} (hquote : c ≠ '"') (hbackslash : c ≠ '\\') (hc : 32 ≤ c.toNat)
    (cs : List Char) : pieces? (c :: cs) = Prod.map (.char c :: ·) id <$> pieces? cs := by
  rw [pieces?, if_neg (Nat.not_lt.mpr hc)]
  · cases pieces? cs <;> rfl
  · exact hquote
  · simp [hbackslash]
  · simp [hbackslash]

lemma pieces?_letter {e c : Char} (h : escaped? e = some c) (cs : List Char) :
    pieces? ('\\' :: e :: cs) = Prod.map (.char c :: ·) id <$> pieces? cs := by
  rw [pieces?, h]
  · cases pieces? cs <;> rfl
  · rintro _ _ _ _ _ rfl
    cases h

lemma pieces?_number {a b c d : Char} {n : ℕ} (h : Text.hexNumber? [a, b, c, d] = some n)
    (cs : List Char) :
    pieces? ('\\' :: 'u' :: a :: b :: c :: d :: cs) =
      Prod.map (.unit n :: ·) id <$> pieces? cs := by
  rw [pieces?, h]
  cases pieces? cs <;> rfl

lemma IsEscape.pieces?_append {c : Char} {w : List Char} (h : IsEscape c w) (cs : List Char) :
    ∃ p, IsPiece c p ∧ pieces? (w ++ cs) = Prod.map (p :: ·) id <$> pieces? cs := by
  cases h with
  | plain hquote hbackslash hplain =>
    exact ⟨_, .char c, pieces?_plain hquote hbackslash hplain cs⟩
  | letter hletter => exact ⟨_, .char c, pieces?_letter hletter cs⟩
  | number hcontrol =>
    exact ⟨_, .unit c hcontrol, pieces?_number (hexNumber?_digitChar _ hcontrol) cs⟩

lemma decode?_cons {c : Char} {p : Piece} (h : IsPiece c p) (ps : List Piece) :
    decode? (p :: ps) = (c :: ·) <$> decode? ps := by
  cases h with
  | char => rfl
  | unit hcontrol =>
    -- A control character is no half of a surrogate pair, so the next piece is left alone.
    have hhigh : ¬ IsHigh c.toNat := by
      rw [IsHigh]
      omega
    have hlow : ¬ IsLow c.toNat := by
      rw [IsLow]
      omega
    cases ps with
    | nil => simp [decode?, hhigh, hlow]
    | cons p ps => cases p <;> simp [decode?, hhigh, hlow]

lemma decode?_of_forall₂ {cs : List Char} {ps : List Piece} (h : List.Forall₂ IsPiece cs ps) :
    decode? ps = some cs := by
  induction h with
  | nil => rfl
  | cons hc _ ih =>
    rw [decode?_cons hc, ih]
    rfl

lemma pieces?_flatMap_escape (cs rest : List Char) : ∃ ps, List.Forall₂ IsPiece cs ps ∧
    pieces? (cs.flatMap escape ++ '"' :: rest) = some (ps, rest) := by
  induction cs with
  | nil => exact ⟨[], .nil, rfl⟩
  | cons c cs ih =>
    obtain ⟨ps, hps, hcs⟩ := ih
    obtain ⟨p, hp, hc⟩ := (isEscape_escape c).pieces?_append (cs.flatMap escape ++ '"' :: rest)
    refine ⟨p :: ps, .cons hp hps, ?_⟩
    rw [List.flatMap_cons, List.append_assoc, hc, hcs]
    rfl

lemma IsEscape.isPrintable {c : Char} {w : List Char} (h : IsEscape c w) : IsPrintable w := by
  cases h with
  | plain _ _ hplain => exact isPrintable_cons hplain nofun
  | letter _ he => exact isPrintable_cons (by decide) (isPrintable_cons he nofun)
  | number hcontrol =>
    have hdigit : ∀ n < 16, 32 ≤ (Nat.digitChar n).toNat := by decide
    have hhigh := hdigit (c.toNat / 16) (by omega)
    have hlow := hdigit (c.toNat % 16) (by omega)
    have hdigits : IsPrintable [Nat.digitChar (c.toNat / 16), Nat.digitChar (c.toNat % 16)] :=
      isPrintable_cons hhigh (isPrintable_cons hlow nofun)
    have hfront : IsPrintable ['\\', 'u', '0', '0'] := by simp [IsPrintable]
    exact isPrintable_append hfront hdigits

lemma isPrintable_encode (cs : List Char) : IsPrintable (encode cs) := by
  apply isPrintable_enclosed (by decide) _ (by decide)
  intro c hc
  obtain ⟨d, -, hc⟩ := List.mem_flatMap.mp hc
  exact (isEscape_escape d).isPrintable c hc

end Quoted

namespace Token

lemma ofText?_cons {c : Char} {cs rest : List Char} {t : Token} (hc : isSpace c = false)
    (h : next? (c :: cs) = some (t, rest)) :
    ofText? (c :: cs) = (t :: ·) <$> ofText? rest := by
  rw [ofText?, hc]
  simp only [Bool.false_eq_true, if_false]
  split
  · next hnone =>
    rw [h] at hnone
    cases hnone
  · next t' rest' hsome =>
    rw [h] at hsome
    cases hsome
    rfl

lemma next?_encode (cs rest : List Char) :
    next? (Quoted.encode cs ++ rest) = some (.string (some (String.ofList cs)), rest) := by
  obtain ⟨ps, hps, hread⟩ := Quoted.pieces?_flatMap_escape cs rest
  rw [Quoted.encode, List.append_assoc, List.cons_append, List.singleton_append]
  simp only [next?, hread, Option.map_some, Quoted.decode?_of_forall₂ hps]

end Token

end Polycalc.Json
