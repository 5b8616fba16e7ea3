import Polycalc.Json.Value
import Polycalc.Proofs.Json.Quoted
import Polycalc.Proofs.Numeral

namespace Polycalc.Json

def returned {α : Type} : Option (α × List Char) → Option (α × List Char) :=
  Option.map (Prod.map id (· ++ ['\r']))

namespace Quoted

lemma hexNumber?_append_return (ds : List Char) : Text.hexNumber? (ds ++ ['\r']) = none := by
  rw [Text.hexNumber?, List.foldlM_append]
  cases List.foldlM (fun n c => (16 * n + ·) <$> Text.hexDigit? c) 0 ds <;> rfl

lemma pieces?_unescaped {e : Char} {cs : List Char} (h : escaped? e = none)
    (hnumber : ∀ a b c d r, e = 'u' → cs = a :: b :: c :: d :: r →
      Text.hexNumber? [a, b, c, d] = none) : pieces? ('\\' :: e :: cs) = none := by
  by_cases hlong : ∃ a b c d r, e = 'u' ∧ cs = a :: b :: c :: d :: r
  · obtain ⟨a, b, c, d, r, rfl, rfl⟩ := hlong
    rw [pieces?, hnumber a b c d r rfl rfl]
    rfl
  · rw [pieces?, h]
    · rfl
    · intro a b c d r he hcs
      exact hlong ⟨a, b, c, d, r, he, hcs⟩

lemma pieces?_append_return (cs : List Char) :
    pieces? (cs ++ ['\r']) = returned (pieces? cs) := by
  fun_induction pieces? cs with
  | case1 => rfl
  | case2 r => rfl
  | case3 a b c d r ih =>
    simp only [List.cons_append, pieces?, ih]
    cases Text.hexNumber? [a, b, c, d] <;> cases pieces? r <;> rfl
  | case4 e r hshort ih =>
    rw [List.cons_append, List.cons_append]
    cases hesc : escaped? e with
    | some c =>
      rw [pieces?_letter hesc, ih]
      cases pieces? r <;> rfl
    | none =>
      apply pieces?_unescaped hesc
      intro a b c d r' he hr
      -- with fewer than four characters before it, the carriage return is taken for a digit
      rcases r with _ | ⟨a, _ | ⟨b, _ | ⟨c, _ | ⟨d, r⟩⟩⟩⟩
      case cons.cons.cons.nil =>
        cases hr
        exact hexNumber?_append_return [a, b, c]
      case cons.cons.cons.cons => exact (hshort a b c d r he rfl).elim
      all_goals cases hr
  | case5 c r hquote _ _ hcontrol =>
    have hbackslash : c ≠ '\\' := by
      rintro rfl
      exact absurd hcontrol (by decide)
    rw [List.cons_append, pieces?, if_pos hcontrol]
    · rfl
    all_goals simp_all
  | case6 c r hquote hnumber hletter hplain ih =>
    by_cases hbackslash : c = '\\'
    · subst hbackslash
      cases r with
      | nil => rfl
      | cons e r => exact (hletter e r rfl rfl).elim
    · rw [List.cons_append, pieces?_plain hquote hbackslash (Nat.le_of_not_lt hplain), ih]
      cases pieces? r <;> rfl

end Quoted

lemma append_return_ne {w cs : List Char} (hcs : ∀ r, cs = w ++ r → False) (hw : '\r' ∉ w)
    (r : List Char) (h : cs ++ ['\r'] = w ++ r) : False := by
  rcases List.append_eq_append_iff.mp h with ⟨a, ha, hend⟩ | ⟨a, ha, -⟩
  · cases a with
    | nil => exact hcs [] (by simpa using ha.symm)
    | cons c a =>
      obtain ⟨rfl, -⟩ := List.cons.inj hend
      exact hw (by simp [ha])
  · exact hcs a ha

namespace Token

lemma afterDigits?_append_return (cs : List Char) :
    afterDigits? (cs ++ ['\r']) = (afterDigits? cs).map (· ++ ['\r']) := by
  cases cs with
  | nil => rfl
  | cons c r =>
    have hrest : (r ++ ['\r']).dropWhile Char.isDigit = r.dropWhile Char.isDigit ++ ['\r'] := by
      rw [List.dropWhile_append]
      cases h : r.dropWhile Char.isDigit <;> rfl
    by_cases hc : c.isDigit <;> simp [afterDigits?, hc, hrest]

lemma afterExponent?_append_return (cs : List Char) :
    afterExponent? (cs ++ ['\r']) = (afterExponent? cs).map (· ++ ['\r']) := by
  fun_cases afterExponent? cs with
  | case1 e he ds => simp [afterExponent?, he, afterDigits?_append_return]
  | case2 e he ds => simp [afterExponent?, he, afterDigits?_append_return]
  | case3 e he r hplus hminus =>
    rw [← afterDigits?_append_return, List.cons_append, afterExponent?, if_pos he]
    · exact append_return_ne (w := ['+']) hplus (by decide)
    · exact append_return_ne (w := ['-']) hminus (by decide)
  | case4 e r he => simp [afterExponent?, he]
  | case5 => rfl

lemma afterFraction?_append_return (cs : List Char) :
    afterFraction? (cs ++ ['\r']) = (afterFraction? cs).map (· ++ ['\r']) := by
  fun_cases afterFraction? cs with
  | case1 r =>
    rw [List.cons_append, afterFraction?, afterDigits?_append_return]
    cases afterDigits? r with
    | none => rfl
    | some ds => exact afterExponent?_append_return ds
  | case2 _ hpoint =>
    rw [← afterExponent?_append_return, afterFraction?]
    exact append_return_ne (w := ['.']) hpoint (by decide)

lemma afterUnsigned?_append_return (cs : List Char) :
    afterUnsigned? (cs ++ ['\r']) = (afterUnsigned? cs).map (· ++ ['\r']) := by
  fun_cases afterUnsigned? cs with
  | case1 r => exact afterFraction?_append_return r
  | case2 _ hzero =>
    rw [afterUnsigned?, afterDigits?_append_return]
    · cases afterDigits? cs with
      | none => rfl
      | some ds => exact afterFraction?_append_return ds
    · exact append_return_ne (w := ['0']) hzero (by decide)

lemma next?_append_return (cs : List Char) : next? (cs ++ ['\r']) = returned (next? cs) := by
  fun_cases next? cs with
  | case12 _ hopenArray hcloseArray hopenObject hcloseObject hcomma hcolon hnull htrue hfalse hquote
      hminus =>
    rw [next?, afterUnsigned?_append_return]
    · cases afterUnsigned? cs <;> rfl
    · exact append_return_ne (w := ['[']) hopenArray (by decide)
    · exact append_return_ne (w := [']']) hcloseArray (by decide)
    · exact append_return_ne (w := ['\x7b']) hopenObject (by decide)
    · exact append_return_ne (w := ['\x7d']) hcloseObject (by decide)
    · exact append_return_ne (w := [',']) hcomma (by decide)
    · exact append_return_ne (w := [':']) hcolon (by decide)
    · exact append_return_ne (w := ['n', 'u', 'l', 'l']) hnull (by decide)
    · exact append_return_ne (w := ['t', 'r', 'u', 'e']) htrue (by decide)
    · exact append_return_ne (w := ['f', 'a', 'l', 's', 'e']) hfalse (by decide)
    · exact append_return_ne (w := ['"']) hquote (by decide)
    · exact append_return_ne (w := ['-']) hminus (by decide)
  | case11 r =>
    rw [List.cons_append, next?, afterUnsigned?_append_return]
    cases afterUnsigned? r <;> rfl
  | case10 r =>
    rw [List.cons_append, next?, Quoted.pieces?_append_return]
    cases Quoted.pieces? r <;> rfl
  | _ r => rfl

lemma ofText?_eq_none {c : Char} {cs : List Char} (hc : isSpace c = false)
    (h : next? (c :: cs) = none) : ofText? (c :: cs) = none := by
  rw [ofText?, hc]
  simp only [Bool.false_eq_true, if_false]
  split
  · rfl
  · next _ _ hsome =>
    rw [h] at hsome
    cases hsome

lemma ofText?_append_return (cs : List Char) : ofText? (cs ++ ['\r']) = ofText? cs := by
  fun_induction ofText? cs with
  | case1 => simp [ofText?, isSpace]
  | case2 c r hc ih => rw [List.cons_append, ofText?, if_pos hc, ih]
  | case3 c r hc hnone =>
    have hreturn := next?_append_return (c :: r)
    rw [hnone] at hreturn
    exact ofText?_eq_none (by simpa using hc) hreturn
  | case4 c r hc t rest hnext _ ih =>
    have hreturn := next?_append_return (c :: r)
    rw [hnext] at hreturn
    rw [← ih]
    exact ofText?_cons (by simpa using hc) hreturn

lemma next?_of_isBlank {c : Char} (hc : Text.isBlank c) (r : List Char) : next? (c :: r) = none := by
  have hdigit : c.isDigit = false := by
    by_contra h
    rw [Text.isBlank_eq_false_of_isDigit (by simpa using h)] at hc
    cases hc
  rw [next?.eq_def]
  split
  case h_12 =>
    have hzero : c ≠ '0' := by
      rintro rfl
      cases hdigit
    rw [afterUnsigned?, afterDigits?, if_neg (by simp [hdigit])]
    · rfl
    · simp [hzero]
  all_goals
    next heq =>
      obtain ⟨rfl, -⟩ := List.cons.inj heq
      exact absurd hc (by decide)

lemma ofText?_of_isBlank {cs : List Char} (h : ∀ c ∈ cs, Text.isBlank c) :
    ofText? cs = some [] ∨ ofText? cs = none := by
  induction cs with
  | nil => simp [ofText?]
  | cons c r ih =>
    obtain ⟨hc, hr⟩ := List.forall_mem_cons.mp h
    by_cases hspace : isSpace c
    · rw [ofText?, if_pos hspace]
      exact ih hr
    · exact Or.inr (ofText?_eq_none (by simpa using hspace) (next?_of_isBlank hc r))

end Token

namespace Value

lemma ofText?_append_return (cs : List Char) : ofText? (cs ++ ['\r']) = ofText? cs := by
  rw [ofText?, Token.ofText?_append_return, ofText?]

lemma ofText?_of_isBlank {cs : List Char} (h : ∀ c ∈ cs, Text.isBlank c) : ofText? cs = none := by
  rw [ofText?]
  rcases Token.ofText?_of_isBlank h with h | h <;> rw [h] <;> rfl

end Value

end Polycalc.Json
