import Mathlib.Data.Int.Notation
import Mathlib.Data.List.TakeDrop
import Mathlib.Data.List.TakeWhile
import Polycalc.Proofs.Numeral
import Polycalc.Proofs.Run
import Polycalc.Term.Reader

namespace Polycalc.Term

open Run (IsSign)

def signed (s : Char) (n : ℕ) : Int64 := if s = '-' then -Int64.ofNat n else Int64.ofNat n

lemma toInt_signed {n : ℕ} (s : Char) (hn : n ≤ Text.maxNumeral) :
    (signed s n).toInt = if s = '-' then -(n : ℤ) else n := by
  rw [Text.maxNumeral] at hn
  rw [signed]
  split_ifs
  · exact Int64.toInt_neg_ofNat_of_le (by omega)
  · exact Int64.toInt_ofNat_of_lt (by omega)

lemma magnitude?_eq (ds : List Char) :
    magnitude? ds = if ds.head? = some '0' then none else Text.numeral? ds := by
  rw [magnitude?.eq_def]
  split
  · rfl
  · next hne =>
    rw [if_neg]
    intro h
    obtain ⟨r, rfl⟩ := List.head?_eq_some_iff.mp h
    exact hne r rfl

lemma coefficient?_cons {s : Char} (hs : IsSign s) (ds : List Char) :
    coefficient? (s :: ds) = signed s <$> magnitude? ds := by
  rcases hs with rfl | rfl <;> rfl

def readDegree (run after : List Char) : Except Failure UInt32 :=
  if after.isEmpty then pure 1 else readPower run after

lemma not_mem_span {cs : List Char} (h : 'x' ∉ cs) : ∀ c ∈ cs, (c != 'x') = true := by
  intro c hc
  exact bne_iff_ne.mpr fun hx => h (hx ▸ hc)

theorem read_of_not_mem {run : List Char} (h : 'x' ∉ run) :
    read run = constant <$> readCoefficient run := by
  have hspan : run.span (· != 'x') = (run, []) := by
    rw [List.span_eq_takeWhile_dropWhile, List.takeWhile_eq_self_iff.mpr (not_mem_span h),
      List.dropWhile_eq_nil_iff.mpr (not_mem_span h)]
  rw [read, hspan]

lemma read_append {before : List Char} (h : 'x' ∉ before) (after : List Char) :
    read (before ++ 'x' :: after) = do
      let d ← readDegree (before ++ 'x' :: after) after
      let c ← match unit? before with
        | some c => pure c
        | none => readFactor (before ++ 'x' :: after) before
      return ⟨d, c⟩ := by
  have hspan : (before ++ 'x' :: after).span (· != 'x') = (before, 'x' :: after) := by
    rw [List.span_eq_takeWhile_dropWhile, List.takeWhile_append_of_pos (not_mem_span h),
      List.dropWhile_append_of_pos (not_mem_span h), List.takeWhile_cons_of_neg (by simp),
      List.dropWhile_cons_of_neg (by simp), List.append_nil]
  rw [read, hspan, readDegree]
  dsimp only
  cases after <;> cases unit? before <;> rfl

theorem read_unit {s : Char} (hs : IsSign s) (after : List Char) :
    read (s :: 'x' :: after) = (⟨·, signed s 1⟩) <$> readDegree (s :: 'x' :: after) after := by
  have hx : 'x' ∉ [s] := by rcases hs with rfl | rfl <;> decide
  have hunit : unit? [s] = some (signed s 1) := by rcases hs with rfl | rfl <;> decide
  have h := read_append hx after
  rw [hunit] at h
  rw [List.singleton_append] at h
  rw [h]
  rfl

theorem read_factor {s : Char} (hs : IsSign s) {b : List Char} (hb : b ≠ []) (hx : 'x' ∉ b)
    (after : List Char) :
    read (s :: (b ++ 'x' :: after)) = do
      let d ← readDegree (s :: (b ++ 'x' :: after)) after
      let c ← readFactor (s :: (b ++ 'x' :: after)) (s :: b)
      return ⟨d, c⟩ := by
  have hsx : 'x' ∉ s :: b := by
    rw [List.mem_cons, not_or]
    exact ⟨by rcases hs with rfl | rfl <;> decide, hx⟩
  have hunit : unit? (s :: b) = none := by
    cases b with
    | nil => exact (hb rfl).elim
    | cons c b => rfl
  have h := read_append hsx after
  rw [hunit] at h
  exact h

lemma readFactor_append (run literal : List Char) :
    readFactor run (literal ++ ['*']) = readCoefficient literal := by
  rw [readFactor, List.getLast?_append, List.dropLast_concat]
  rfl

end Polycalc.Term
