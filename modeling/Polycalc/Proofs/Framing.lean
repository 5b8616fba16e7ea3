import Mathlib.Data.List.Forall2
import Mathlib.Data.List.ReduceOption
import Mathlib.Tactic.Lemma
import Polycalc.Text

namespace Polycalc.Text

/-- Behind each line there is a line feed, which the last one may go without. -/
inductive SplitsInto : List UInt8 → List (List UInt8) → Prop
  | nil : SplitsInto [] []
  | last {line : List UInt8} : line ≠ [] → lineFeed ∉ line → SplitsInto line [line]
  | cons {line bytes : List UInt8} {lines : List (List UInt8)} :
      lineFeed ∉ line → SplitsInto bytes lines →
        SplitsInto (line ++ lineFeed :: bytes) (line :: lines)

def linesWith (f : List UInt8 → List UInt8) (bytes : List UInt8) : List (List UInt8) :=
  let parts := bytes.splitOn lineFeed
  parts.dropLast.map f ++ parts.getLast?.toList.filter (· ≠ [])

section Lines

variable {f : List UInt8 → List UInt8} {line bytes rest : List UInt8}
  {lines lines' : List (List UInt8)}

lemma linesWith_of_not_mem (h : lineFeed ∉ line) : linesWith f line = [line].filter (· ≠ []) := by
  rw [linesWith, List.splitOn_eq_singleton h]
  rfl

lemma linesWith_cons (h : lineFeed ∉ line) :
    linesWith f (line ++ lineFeed :: bytes) = f line :: linesWith f bytes := by
  rw [linesWith, List.splitOn_append_cons_self_of_not_mem h]
  obtain ⟨part, parts, hparts⟩ := List.exists_cons_of_ne_nil (List.splitOn_ne_nil lineFeed bytes)
  rw [linesWith, hparts]
  simp

lemma SplitsInto.eq_linesWith (h : SplitsInto bytes lines) : lines = linesWith id bytes := by
  induction h with
  | nil => rfl
  | last hne hfree => simp [linesWith_of_not_mem hfree, hne]
  | cons hfree _ ih => rw [linesWith_cons hfree, ← ih, id_eq]

lemma SplitsInto.cons_byte (h : SplitsInto bytes lines) {b : UInt8} (hb : b ≠ lineFeed) :
    ∃ lines', SplitsInto (b :: bytes) lines' := by
  have hfree : ∀ {line}, lineFeed ∉ line → lineFeed ∉ b :: line := fun h =>
    List.not_mem_cons_of_ne_of_not_mem (Ne.symm hb) h
  cases h with
  | nil => exact ⟨_, .last (List.cons_ne_nil b []) (hfree List.not_mem_nil)⟩
  | last _ h => exact ⟨_, .last (List.cons_ne_nil b _) (hfree h)⟩
  | cons h hrest => exact ⟨_, .cons (hfree h) hrest⟩

lemma exists_splitsInto (bytes : List UInt8) : ∃ lines, SplitsInto bytes lines := by
  induction bytes with
  | nil => exact ⟨[], .nil⟩
  | cons b bytes ih =>
    obtain ⟨lines, h⟩ := ih
    by_cases hb : b = lineFeed
    · subst hb
      exact ⟨_, .cons List.not_mem_nil h⟩
    · exact h.cons_byte hb

lemma SplitsInto.iff_eq (h : SplitsInto bytes lines) :
    SplitsInto bytes lines' ↔ lines' = lines := by
  constructor
  · intro h'
    rw [h'.eq_linesWith, h.eq_linesWith]
  · rintro rfl
    exact h

lemma SplitsInto.linesWith_append (h : SplitsInto bytes lines)
    (hend : bytes.getLast? = some lineFeed) :
    linesWith f (bytes ++ rest) = linesWith f bytes ++ linesWith f rest := by
  induction h with
  | nil => cases hend
  | last _ hfree => exact absurd (List.mem_of_getLast? hend) hfree
  | @cons line bytes lines hfree h ih =>
    rw [List.append_assoc, List.cons_append, linesWith_cons hfree, linesWith_cons hfree,
      List.cons_append]
    rcases bytes.eq_nil_or_concat with rfl | ⟨init, b, rfl⟩
    · rfl
    · rw [ih]
      rw [List.concat_eq_append, ← List.cons_append, ← List.append_assoc,
        List.getLast?_concat] at hend
      rw [List.concat_eq_append, List.getLast?_concat]
      exact hend

lemma dropReturn_cases (line : List UInt8) :
    line = dropReturn line ∨ line = dropReturn line ++ [carriageReturn] := by
  rw [dropReturn]
  split_ifs with h
  · exact Or.inr (List.dropLast_append_getLast? _ h).symm
  · exact Or.inl rfl

lemma SplitsInto.lines_eq (h : SplitsInto bytes lines) :
    List.Forall₂ (fun line read => line = read ∨ line = read ++ [carriageReturn]) lines
      (Text.lines bytes) := by
  change List.Forall₂ _ _ (linesWith dropReturn bytes)
  induction h with
  | nil => exact .nil
  | @last line hne hfree =>
    have hline : [line].filter (· ≠ []) = [line] := by simp [hne]
    rw [linesWith_of_not_mem hfree, hline]
    exact .cons (Or.inl rfl) .nil
  | @cons line _ _ hfree _ ih =>
    rw [linesWith_cons hfree]
    exact .cons (dropReturn_cases line) ih

lemma lines_append (hend : bytes.getLast? = some lineFeed) :
    Text.lines (bytes ++ rest) = Text.lines bytes ++ Text.lines rest := by
  obtain ⟨lines, h⟩ := exists_splitsInto bytes
  exact h.linesWith_append hend

end Lines

lemma decode?_eq_some_iff {bytes : List UInt8} {text : String} :
    decode? bytes = some text ↔ text.toByteArray = ⟨bytes.toArray⟩ := by
  rw [decode?, String.fromUTF8?]
  split_ifs with hvalid
  · rw [Option.some.injEq, String.fromUTF8]
    constructor
    · rintro rfl
      rfl
    · intro h
      apply String.toByteArray_inj.mp
      exact h.symm
  · refine iff_of_false nofun fun h => hvalid ?_
    rw [← h]
    exact text.isValidUTF8

lemma toArray_append_return (bytes : List UInt8) :
    ByteArray.mk (bytes ++ [carriageReturn]).toArray =
      ⟨bytes.toArray⟩ ++ ['\r'].utf8Encode := by
  apply ByteArray.ext
  simp [List.utf8Encode_singleton, String.utf8EncodeChar, carriageReturn]

lemma isValidUTF8_of_append {bytes : ByteArray} {c : Char}
    (h : (bytes ++ [c].utf8Encode).IsValidUTF8) : bytes.IsValidUTF8 := by
  let text : String := ⟨bytes ++ [c].utf8Encode, h⟩
  let seam : String.Pos.Raw := ⟨bytes.size⟩
  have hlt : seam < text.rawEndPos := by
    have hpos : 0 < [c].utf8Encode.size := by
      rw [List.utf8Encode_singleton, List.size_toByteArray, String.length_utf8EncodeChar]
      exact c.utf8Size_pos
    simp only [String.Pos.Raw.lt_iff, String.byteIdx_rawEndPos, ← String.size_toByteArray, seam,
      text, ByteArray.size_append]
    omega
  have hseam : seam.IsValid text := by
    refine String.Pos.Raw.isValid_iff_isUTF8FirstByte.mpr (Or.inr ⟨hlt, ?_⟩)
    simp only [String.getUTF8Byte, text, seam]
    rw [ByteArray.getElem_append_right (Nat.le_refl _)]
    exact List.isUTF8FirstByte_getElem_utf8Encode_singleton.mpr (Nat.sub_self _)
  have hfront := (String.Pos.Raw.isValid_iff_isValidUTF8_extract_zero.mp hseam).2
  simpa [text, seam, ByteArray.extract_append_eq_left] using hfront

lemma decode?_append_return (bytes : List UInt8) :
    decode? (bytes ++ [carriageReturn]) = (decode? bytes).map (·.push '\r') := by
  cases h : decode? bytes with
  | some text =>
    rw [Option.map_some, decode?_eq_some_iff, String.toByteArray_push, decode?_eq_some_iff.mp h,
      toArray_append_return]
  | none =>
    apply Option.eq_none_iff_forall_ne_some.mpr
    intro text htext
    rw [decode?_eq_some_iff, toArray_append_return] at htext
    have hvalid := isValidUTF8_of_append (htext ▸ text.isValidUTF8)
    have hsome : decode? bytes = some ⟨_, hvalid⟩ := decode?_eq_some_iff.mpr rfl
    rw [h] at hsome
    cases hsome

/-- The texts of the lines in front of the first that is no text. -/
def decodeAll (lines : List (List UInt8)) : List String :=
  ((lines.map decode?).takeWhile Option.isSome).reduceOption

lemma decodeAll_cons {line : List UInt8} {text : String} (h : decode? line = some text)
    (lines : List (List UInt8)) : decodeAll (line :: lines) = text :: decodeAll lines := by
  simp [decodeAll, h, List.reduceOption_cons_of_some]

lemma decodeAll_of_none {line : List UInt8} (h : decode? line = none)
    (lines : List (List UInt8)) : decodeAll (line :: lines) = [] := by
  simp [decodeAll, h]

section Reads

variable {lines reads : List (List UInt8)}
  (h : List.Forall₂ (fun line read => line = read ∨ line = read ++ [carriageReturn]) lines reads)

include h

lemma forall₂_decodeAll :
    List.Forall₂ (fun text read => text = read ∨ text = read.push '\r') (decodeAll lines)
      (decodeAll reads) := by
  induction h with
  | nil => exact .nil
  | @cons line read lines reads hread _ ih =>
    cases htext : decode? read with
    | none =>
      have hline : decode? line = none := by
        rcases hread with rfl | rfl
        · exact htext
        · rw [decode?_append_return, htext, Option.map_none]
      rw [decodeAll_of_none hline, decodeAll_of_none htext]
      exact .nil
    | some text =>
      rw [decodeAll_cons htext]
      rcases hread with rfl | rfl
      · rw [decodeAll_cons htext]
        exact .cons (Or.inl rfl) ih
      · have hline : decode? (read ++ [carriageReturn]) = some (text.push '\r') := by
          rw [decode?_append_return, htext, Option.map_some]
        rw [decodeAll_cons hline]
        exact .cons (Or.inr rfl) ih

lemma forall_isSome_decode?_iff :
    (∀ line ∈ lines, (decode? line).isSome) ↔ ∀ read ∈ reads, (decode? read).isSome := by
  induction h with
  | nil => rfl
  | @cons line read lines reads hread _ ih =>
    have hline : (decode? line).isSome = (decode? read).isSome := by
      rcases hread with rfl | rfl
      · rfl
      · rw [decode?_append_return, Option.isSome_map]
    rw [List.forall_mem_cons, List.forall_mem_cons, hline, ih]

end Reads

lemma toList_loop (bytes : ByteArray) (i : ℕ) (acc : List UInt8) :
    ByteArray.toList.loop bytes i acc = acc.reverse ++ bytes.data.toList.drop i := by
  fun_induction ByteArray.toList.loop bytes i acc with
  | case1 i acc hi ih =>
    have hlt : i < bytes.data.toList.length := by simpa using hi
    rw [ih, List.drop_eq_getElem_cons hlt]
    simp [ByteArray.get!, hi]
  | case2 i acc hi =>
    rw [List.drop_eq_nil_of_le (by simpa using hi), List.append_nil]

lemma toList_eq (bytes : ByteArray) : bytes.toList = bytes.data.toList := by
  rw [ByteArray.toList, toList_loop]
  rfl

lemma toList_append (a b : ByteArray) : (a ++ b).toList = a.toList ++ b.toList := by
  rw [toList_eq, toList_eq, toList_eq, ByteArray.data_append, Array.toList_append]

end Polycalc.Text
