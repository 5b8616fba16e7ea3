import Mathlib.Data.Int.Notation
import Polycalc.Polynomial.Printer
import Polycalc.Proofs.Grammar.Sum
import Polycalc.Proofs.Shape
import Polycalc.Text

namespace Polycalc

namespace Text

lemma isBlank_eq_false_of_isBodyChar {c : Char} (h : Shape.IsBodyChar c) :
    isBlank c = false := by
  rcases h with h | h
  · exact isBlank_eq_false_of_isDigit h
  · simp only [List.mem_cons, List.not_mem_nil, or_false] at h
    rcases h with rfl | rfl | rfl | rfl | rfl <;> decide

lemma strip_eq_self {cs : List Char} (h : ∀ c ∈ cs, Shape.IsBodyChar c) : strip cs = cs := by
  refine List.filter_eq_self.mpr ?_
  intro c hc
  rw [isBlank_eq_false_of_isBodyChar (h c hc)]
  rfl

lemma strip_cons {c : Char} (h : isBlank c = false) (cs : List Char) :
    strip (c :: cs) = c :: strip cs := List.filter_cons_of_pos (by rw [h]; rfl)

lemma strip_cons_blank {c : Char} (h : isBlank c = true) (cs : List Char) :
    strip (c :: cs) = strip cs := List.filter_cons_of_neg (by rw [h]; exact Bool.false_ne_true)

lemma strip_dropWhile (cs : List Char) : strip (cs.dropWhile isBlank) = strip cs := by
  induction cs with
  | nil => rfl
  | cons c cs ih =>
    cases hc : isBlank c with
    | false => rw [List.dropWhile_cons_of_neg (by rw [hc]; exact Bool.false_ne_true)]
    | true => rw [List.dropWhile_cons_of_pos hc, strip_cons_blank hc, ih]

lemma strip_reverse (cs : List Char) : strip cs.reverse = (strip cs).reverse :=
  List.filter_reverse ..

@[simp] theorem strip_trim (cs : List Char) : strip (trim cs) = strip cs := by
  rw [trim, strip_reverse, strip_dropWhile, strip_reverse, List.reverse_reverse, strip_dropWhile]

end Text

namespace Term

open Grammar (IsMonomialChar)
open Run (IsSign IsRun)

def sign (t : Term) : Char := if t.IsNegative then '-' else '+'

def run (t : Term) : List Char := t.sign :: t.renderUnsigned

lemma isSign_sign (t : Term) : IsSign t.sign := by
  rw [sign]
  split_ifs
  · exact Run.isSign_minus
  · exact Run.isSign_plus

lemma magnitude_ne_zero {t : Term} (hz : ¬ t.IsZero) : t.magnitude ≠ 0 := by
  intro h
  apply hz
  have h : t.coefficient.toInt = 0 := Int.natAbs_eq_zero.mp h
  exact Int64.toInt_inj.mp (h.trans Int64.toInt_zero.symm)

@[simp] lemma signed_magnitude (t : Term) : signed t.sign t.magnitude = t.coefficient := by
  have hlow := Int64.le_toInt t.coefficient
  have hhigh := Int64.toInt_lt t.coefficient
  have hneg : t.IsNegative ↔ t.coefficient.toInt < 0 := Int64.lt_iff_toInt_lt
  apply Int64.toInt_inj.mp
  rw [signed, sign, magnitude]
  by_cases h : t.IsNegative
  · have hlt := hneg.mp h
    -- the least coefficient too, though its magnitude is out of range
    rw [if_pos h, if_pos rfl, Int64.toInt_neg_ofNat_of_le (by omega)]
    omega
  · have hge := mt hneg.mpr h
    rw [if_neg h, if_neg (by decide), Int64.toInt_ofNat_of_lt (by omega)]
    omega

def afterPower (d : UInt32) : List Char := if d = 1 then [] else '^' :: Text.decimal d.toNat

lemma renderPower_eq {d : UInt32} (hd : d ≠ 0) : renderPower d = 'x' :: afterPower d := by
  rw [renderPower, afterPower, if_neg hd]
  split_ifs <;> rfl

lemma decimal_chars (n : ℕ) : ∀ c ∈ Text.decimal n, IsMonomialChar c :=
  fun _ hc => Or.inl (Text.isDigit_of_mem_decimal hc)

lemma renderPower_chars (d : UInt32) : ∀ c ∈ renderPower d, IsMonomialChar c := by
  have hx : IsMonomialChar 'x' := Or.inr (by decide)
  have hcaret : IsMonomialChar '^' := Or.inr (by decide)
  rw [renderPower]
  split_ifs
  · exact nofun
  · exact List.forall_mem_singleton.mpr hx
  · exact List.forall_mem_cons.mpr ⟨hx, List.forall_mem_cons.mpr ⟨hcaret, decimal_chars _⟩⟩

lemma renderUnsigned_chars (t : Term) : ∀ c ∈ t.renderUnsigned, IsMonomialChar c := by
  have htimes : IsMonomialChar '*' := Or.inr (by decide)
  rw [renderUnsigned]
  split_ifs
  · exact decimal_chars _
  · exact renderPower_chars _
  · refine List.forall_mem_append.mpr ⟨decimal_chars _, ?_⟩
    exact List.forall_mem_cons.mpr ⟨htimes, renderPower_chars _⟩

lemma isRun_run (t : Term) : IsRun t.run :=
  ⟨t.sign, t.renderUnsigned, rfl, t.isSign_sign,
    fun c hc => (t.renderUnsigned_chars c hc).not_isSign⟩

lemma isBodyChar_renderUnsigned (t : Term) : ∀ c ∈ t.renderUnsigned, Shape.IsBodyChar c :=
  fun c hc => (t.renderUnsigned_chars c hc).isBodyChar

lemma isBodyChar_run (t : Term) : ∀ c ∈ t.run, Shape.IsBodyChar c := by
  refine List.forall_mem_cons.mpr ⟨?_, t.isBodyChar_renderUnsigned⟩
  rcases t.isSign_sign with h | h <;> rw [h] <;> decide

lemma head?_renderUnsigned {t : Term} (hz : ¬ t.IsZero) :
    ∃ c, t.renderUnsigned.head? = some c ∧ c ≠ '0' ∧ IsMonomialChar c := by
  have hdecimal : ∃ c, (Text.decimal t.magnitude).head? = some c ∧ c ≠ '0' ∧ IsMonomialChar c := by
    obtain ⟨c, r, h⟩ := List.exists_cons_of_ne_nil (Text.decimal_ne_nil t.magnitude)
    have hhead : (Text.decimal t.magnitude).head? = some c := by rw [h]; rfl
    refine ⟨c, hhead, ?_, decimal_chars _ c (List.mem_of_head? hhead)⟩
    rintro rfl
    exact Text.head?_decimal_ne_zero (magnitude_ne_zero hz) hhead
  rw [renderUnsigned]
  split_ifs with hd
  · exact hdecimal
  · rw [renderPower_eq hd]
    exact ⟨'x', rfl, by decide, Or.inr (by decide)⟩
  · rw [List.head?_append_of_ne_nil _ (Text.decimal_ne_nil _)]
    exact hdecimal

end Term

namespace Polynomial

open Run (withSign split)

lemma strip_renderFirst (t : Term) : Text.strip (renderFirst t) = renderFirst t := by
  have h := Text.strip_eq_self t.isBodyChar_renderUnsigned
  rw [renderFirst]
  split_ifs
  · rw [Text.strip_cons (by decide), h]
  · exact h

lemma strip_renderNext (t : Term) : Text.strip (renderNext t) = t.run := by
  have hsign : Text.isBlank t.sign = false := by
    rcases t.isSign_sign with h | h <;> rw [h] <;> decide
  have h : renderNext t = ' ' :: t.sign :: ' ' :: t.renderUnsigned := rfl
  rw [h, Text.strip_cons_blank (by decide), Text.strip_cons hsign,
    Text.strip_cons_blank (by decide), Text.strip_eq_self t.isBodyChar_renderUnsigned, Term.run]

lemma strip_renderTerms (t : Term) (ts : List Term) :
    Text.strip (renderTerms (t :: ts)) = renderFirst t ++ ts.flatMap Term.run := by
  rw [renderTerms, Text.strip_append, strip_renderFirst]
  congr 1
  induction ts with
  | nil => rfl
  | cons u us ih =>
    rw [List.flatMap_cons, Text.strip_append, strip_renderNext, ih, List.flatMap_cons]

lemma withSign_renderFirst {t : Term} (hz : ¬ t.IsZero) (cs : List Char) :
    withSign (renderFirst t ++ cs) = t.run ++ cs := by
  rw [renderFirst, Term.run, Term.sign]
  split_ifs
  · rfl
  · obtain ⟨c, hhead, -, hc⟩ := Term.head?_renderUnsigned hz
    apply Run.withSign_of_ne
    rw [List.head?_append, hhead]
    intro h
    obtain rfl : c = '-' := Option.some.inj h
    exact hc.not_isSign Run.isSign_minus

theorem split_strip_renderTerms {t : Term} (hz : ¬ t.IsZero) (ts : List Term) :
    split (withSign (Text.strip (renderTerms (t :: ts)))) = (t :: ts).map Term.run := by
  rw [strip_renderTerms, withSign_renderFirst hz, List.flatMap_def, ← List.flatten_cons,
    ← List.map_cons]
  apply Run.split_runs
  intro r hr
  obtain ⟨u, -, rfl⟩ := List.mem_map.mp hr
  exact u.isRun_run

lemma head?_renderFirst {t : Term} (hz : ¬ t.IsZero) :
    ∃ c, (renderFirst t).head? = some c ∧ c ≠ '0' := by
  rw [renderFirst]
  split_ifs
  · exact ⟨'-', rfl, by decide⟩
  · obtain ⟨c, hhead, hne, -⟩ := Term.head?_renderUnsigned hz
    exact ⟨c, hhead, hne⟩

lemma isBody_strip_renderTerms {t : Term} (hz : ¬ t.IsZero) (ts : List Term) :
    Shape.IsBody (Text.strip (renderTerms (t :: ts))) := by
  obtain ⟨c, hhead, -⟩ := head?_renderFirst hz
  rw [strip_renderTerms]
  refine ⟨?_, List.forall_mem_append.mpr ⟨?_, ?_⟩⟩
  · intro h
    rw [(List.append_eq_nil_iff.mp h).1] at hhead
    cases hhead
  · rw [renderFirst]
    split_ifs
    · exact List.forall_mem_cons.mpr
        ⟨by decide, t.isBodyChar_renderUnsigned⟩
    · exact t.isBodyChar_renderUnsigned
  · intro c hc
    obtain ⟨u, -, hu⟩ := List.mem_flatMap.mp hc
    exact u.isBodyChar_run c hu

theorem trim_renderTerms_ne {t : Term} (hz : ¬ t.IsZero) (ts : List Term) :
    Text.trim (renderTerms (t :: ts)) ≠ ['0'] := by
  obtain ⟨c, hhead, hne⟩ := head?_renderFirst hz
  intro h
  have hstrip : renderFirst t ++ ts.flatMap Term.run = Text.strip ['0'] := by
    rw [← strip_renderTerms, ← Text.strip_trim, h]
  have hzero : (renderFirst t ++ ts.flatMap Term.run).head? = some '0' := by
    rw [hstrip]
    decide
  rw [List.head?_append, hhead] at hzero
  exact hne (Option.some.inj hzero)

end Polynomial

end Polycalc
