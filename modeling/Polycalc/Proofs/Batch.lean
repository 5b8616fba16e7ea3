import Polycalc.CommandLine.Run
import Polycalc.Proofs.Framing
import Polycalc.Proofs.Json.Response
import Polycalc.Proofs.Memo.Lines

namespace Polycalc

open Memo (answerLine)

/-- The same, but that two lines which are no requests may be so for different reasons. -/
def Response.Alike (r r' : Response) : Prop :=
  r = r' ∨ ∃ reason reason', r = malformed reason ∧ r' = malformed reason'

namespace Memo

lemma isBlankLine_push_return (line : String) :
    IsBlankLine (line.push '\r') ↔ IsBlankLine line := by
  have hreturn : Text.isBlank '\r' := by decide
  simp [IsBlankLine, or_imp, forall_and, hreturn]

section Return

variable [Diagnosis] {σ : Type} [Cache σ] {m : Memo σ}

lemma answerLine_push_return (line : String) :
    Option.Rel Response.Alike (answerLine (line.push '\r') m).1 (answerLine line m).1 ∧
    (answerLine (line.push '\r') m).2 = (answerLine line m).2 := by
  have hread : Request.read? (line.push '\r') = Request.read? line := by
    rw [Request.read?, String.toList_push, Json.Value.ofText?_append_return, Request.read?]
  cases h : Request.read? line with
  | none =>
    rw [answerLine_of_none h, answerLine_of_none (hread.trans h)]
    simp only [isBlankLine_push_return, and_true]
    split_ifs
    · exact .none
    · exact .some (Or.inr ⟨_, _, rfl, rfl⟩)
  | some r =>
    rw [answerLine_of_isDecoded (Request.read?_eq_some_iff.mp h),
      answerLine_of_isDecoded (Request.read?_eq_some_iff.mp (hread.trans h))]
    exact ⟨.some (Or.inl rfl), rfl⟩

lemma answerLine_fst_eq_none_iff {line : String} :
    (answerLine line m).1 = none ↔ IsBlankLine line := by
  cases h : Request.read? line with
  | none =>
    rw [answerLine_of_none h]
    split_ifs with hblank <;> simp [hblank]
  | some r =>
    have hr := Request.read?_eq_some_iff.mp h
    rw [answerLine_of_isDecoded hr]
    simp [hr.not_isBlankLine]

end Return

section Replies

variable [Diagnosis] {texts reads : List String}
  (h : List.Forall₂ (fun text read => text = read ∨ text = read.push '\r') texts reads)

include h

lemma forall₂_replies : ∀ m : Memo Store,
    List.Forall₂ (fun text reply => reply = none ↔ IsBlankLine text) texts (m.replies reads) := by
  induction h with
  | nil => exact fun _ => .nil
  | @cons text read texts reads hread _ ih =>
    intro m
    rw [replies_cons]
    refine .cons ?_ (ih _)
    rw [answerLine_fst_eq_none_iff]
    rcases hread with rfl | rfl
    · rfl
    · exact (isBlankLine_push_return read).symm

lemma replies_alike : ∀ m : Memo Store,
    List.Forall₂ (Option.Rel Response.Alike) (m.replies texts) (m.replies reads) := by
  induction h with
  | nil => exact fun _ => .nil
  | @cons text read texts reads hread _ ih =>
    intro m
    rw [replies_cons, replies_cons]
    rcases hread with rfl | rfl
    · refine .cons ?_ (ih _)
      cases (answerLine text m).1 with
      | none => exact .none
      | some r => exact .some (Or.inl rfl)
    · obtain ⟨halike, hstate⟩ := answerLine_push_return (m := m) read
      rw [hstate]
      exact .cons halike (ih _)

end Replies

end Memo

namespace CommandLine

namespace Calculator

variable [Diagnosis] {bytes : List UInt8} {lines : List (List UInt8)}

lemma answerLines_cons {text : String} (h : Text.decode? bytes = some text) (m : Calculator) :
    answerLines (bytes :: lines) m =
      ((answerLine text m).1.toList.map Response.write ++
          (answerLines lines (answerLine text m).2).1,
        (answerLines lines (answerLine text m).2).2) := by
  rw [answerLines, h]
  rfl

lemma answerLines_of_none (h : Text.decode? bytes = none) (m : Calculator) :
    answerLines (bytes :: lines) m = ([], false) := by
  rw [answerLines, h]

lemma answerLines_eq (lines : List (List UInt8)) :
    ∀ m : Calculator, answerLines lines m =
      ((m.replies (Text.decodeAll lines)).reduceOption.map Response.write,
        decide (∀ line ∈ lines, (Text.decode? line).isSome)) := by
  induction lines with
  | nil => exact fun _ => rfl
  | cons line lines ih =>
    intro m
    cases htext : Text.decode? line with
    | none =>
      have hbad : ¬ ∀ l ∈ line :: lines, (Text.decode? l).isSome := by simp [htext]
      rw [answerLines_of_none htext, Text.decodeAll_of_none htext, decide_eq_false hbad]
      rfl
    | some text =>
      rw [answerLines_cons htext, Text.decodeAll_cons htext, Memo.replies_cons, ih]
      have hgood : (∀ l ∈ line :: lines, (Text.decode? l).isSome) ↔
          ∀ l ∈ lines, (Text.decode? l).isSome := by simp [htext]
      rw [decide_eq_decide.mpr hgood]
      cases (answerLine text m).1 <;> rfl

lemma answerLines_append (lines more : List (List UInt8)) :
    ∀ m : Calculator, (answerLines lines m).1 <+: (answerLines (lines ++ more) m).1 := by
  induction lines with
  | nil => exact fun m => List.nil_prefix
  | cons line lines ih =>
    intro m
    rw [List.cons_append]
    cases htext : Text.decode? line with
    | none =>
      rw [answerLines_of_none htext]
      exact List.nil_prefix
    | some text =>
      rw [answerLines_cons htext, answerLines_cons htext]
      exact (List.prefix_append_right_inj _).mpr (ih _)

lemma batch_output (m : Calculator) (input : ByteArray) :
    (m.batch input).output = (answerLines (Text.lines input.toList) m).1 := by
  rw [batch]
  dsimp only
  split_ifs <;> rfl

lemma batch_status (m : Calculator) (input : ByteArray) :
    (m.batch input).status = if (answerLines (Text.lines input.toList) m).2 then 0 else 2 := by
  rw [batch]
  dsimp only
  split_ifs <;> rfl

end Calculator

/-- The input is split at line feeds alone, into `lines` and in no other way; a carriage return in
front of a line feed is not read. Each text in front of the first line that is none is answered in
its turn by the one calculator; the answers are written as they are printed anywhere, without a
control character, and what comes behind a line feed changes none of them. -/
theorem run_batch_keeps_line_framing [Diagnosis] (find : String → File) (input : ByteArray)
    (words : List String) (options : Options) (settings : Settings)
    (hwords : Invocation.read? words = some (.command options .batch))
    (hsettings : Settings.load ((options.config.map find).getD .missing) = some settings) :
    ∃ lines, (∀ ls, Text.SplitsInto input.toList ls ↔ ls = lines) ∧
      let reads := Text.lines input.toList
      let texts := Text.decodeAll lines
      let replies := (Calculator.new settings).replies (Text.decodeAll reads)
      List.Forall₂ (fun line read => line = read ∨ line = read ++ [Text.carriageReturn])
        lines reads ∧
      List.Forall₂ (fun text reply => reply = none ↔ ∀ c ∈ text.toList, Text.isBlank c)
        texts replies ∧
      List.Forall₂ (Option.Rel Response.Alike) ((Calculator.new settings).replies texts) replies ∧
      (run find input words).output = replies.reduceOption.map Response.write ∧
      List.Forall₂ Response.PrintedAs replies.reduceOption (run find input words).output ∧
      (∀ written ∈ (run find input words).output, ∀ c ∈ written.toList, 32 ≤ c.toNat) ∧
      (run find input words).status =
        (if ∀ line ∈ lines, (Text.decode? line).isSome then 0 else 2) ∧
      ∀ rest, input.toList.getLast? = some Text.lineFeed →
        (run find input words).output <+: (run find (input ++ rest) words).output := by
  have hrun : ∀ input, run find input words = (Calculator.new settings).batch input := by
    intro input
    rw [run, hwords]
    dsimp only
    rw [Invocation.run, hsettings]
    rfl
  obtain ⟨lines, hlines⟩ := Text.exists_splitsInto input.toList
  have hreads := hlines.lines_eq
  have htexts := Text.forall₂_decodeAll hreads
  have houtput : (run find input words).output =
      ((Calculator.new settings).replies
        (Text.decodeAll (Text.lines input.toList))).reduceOption.map Response.write := by
    rw [hrun, Calculator.batch_output, Calculator.answerLines_eq]
  refine ⟨lines, fun ls => hlines.iff_eq, hreads, Memo.forall₂_replies htexts _,
    Memo.replies_alike htexts _, houtput, ?_, ?_, ?_, ?_⟩
  · rw [houtput, List.forall₂_map_right_iff, List.forall₂_same]
    exact fun response _ => response.printedAs_write
  · intro written hwritten c hc
    rw [houtput] at hwritten
    obtain ⟨response, -, rfl⟩ := List.mem_map.mp hwritten
    rw [Response.write, String.toList_ofList] at hc
    exact response.isPrintable_toJson c hc
  · rw [hrun, Calculator.batch_status, Calculator.answerLines_eq]
    simp only [decide_eq_true_eq, Text.forall_isSome_decode?_iff hreads]
  · intro rest hend
    rw [hrun, hrun, Calculator.batch_output, Calculator.batch_output, Text.toList_append,
      Text.lines_append hend]
    exact Calculator.answerLines_append _ _ _

theorem run_batch_keeps_line_framing_before_bad_byte :
    let _ : Diagnosis :=
      ⟨fun _ => some "invalid length 0, expected struct Request with 2 elements at line 1 column 2"⟩
    let words := ["batch"]
    let find : String → File := fun _ => .missing
    let input : ByteArray := ⟨#[91, 93, 13, 10, 13, 10, 255, 10]⟩
    (Invocation.read? words = some (.command ⟨none, false⟩ .batch) ∧
      Settings.load .missing = some .default) ∧
    (∀ ls, Text.SplitsInto input.toList ls ↔ ls = [[91, 93, 13], [13], [255]]) ∧
    (run find input words).output = ["\x7b\"code\":400,\"message\":\"malformed request: " ++
      "invalid length 0, expected struct Request with 2 elements at line 1 column 2\"\x7d"] ∧
    (run find input words).status = 2 ∧
    ∀ rest, (run find input words).output <+: (run find (input ++ rest) words).output := by
  intro reader words find input
  have hwords : Invocation.read? words = some (.command ⟨none, false⟩ .batch) := by decide
  have hsettings : Settings.load .missing = some .default := by decide
  obtain ⟨lines, hlines, -, -, -, houtput, -, -, hstatus, hgrows⟩ :=
    run_batch_keeps_line_framing find input words ⟨none, false⟩ .default hwords hsettings
  have hinput : input.toList = [91, 93, 13, 10, 13, 10, 255, 10] := Text.toList_eq input
  have hsplit : Text.SplitsInto ([91, 93, 13] ++ 10 :: ([13] ++ 10 :: ([255] ++ 10 :: [])))
      [[91, 93, 13], [13], [255]] :=
    .cons (by decide) (.cons (by decide) (.cons (by decide) .nil))
  rw [hinput] at hlines houtput hgrows
  obtain rfl := (hlines _).mp hsplit
  rw [hinput]
  refine ⟨⟨hwords, hsettings⟩, hlines, ?_, ?_, fun rest => hgrows rest rfl⟩
  · rw [houtput]
    decide +kernel
  · rw [hstatus]
    decide +kernel

end CommandLine

end Polycalc
