import Polycalc.Proofs.Json.Compact
import Polycalc.Proofs.Numeral
import Polycalc.Answer

namespace Polycalc

namespace Json

/-- Quotes, and between them what is read back as the text. Where nothing in the text has to be
escaped it stands there as it is. -/
structure IsQuoted (s w : String) : Prop where
  enclosed : ∃ inner, w = "\"" ++ inner ++ "\""
  read : Value.ofText? w.toList = some (.string (some s))
  plain : (∀ c ∈ s.toList, c ≠ '"' ∧ c ≠ '\\' ∧ 32 ≤ c.toNat) → w = "\"" ++ s ++ "\""

lemma Quoted.flatMap_escape_of_plain {cs : List Char}
    (h : ∀ c ∈ cs, c ≠ '"' ∧ c ≠ '\\' ∧ 32 ≤ c.toNat) : cs.flatMap escape = cs := by
  induction cs with
  | nil => rfl
  | cons c cs ih =>
    obtain ⟨⟨hquote, hbackslash, hc⟩, hcs⟩ := List.forall_mem_cons.mp h
    rw [List.flatMap_cons, ih hcs, escape, if_neg hquote, if_neg hbackslash, if_pos hc]
    rfl

lemma ofList_writeString (s : String) :
    String.ofList (writeString s) =
      "\"" ++ String.ofList (s.toList.flatMap Quoted.escape) ++ "\"" := by
  apply String.toList_inj.mp
  simp [writeString, Quoted.encode]

lemma isQuoted_writeString (s : String) : IsQuoted s (String.ofList (writeString s)) where
  enclosed := ⟨_, ofList_writeString s⟩
  read := by
    rw [String.toList_ofList]
    exact (isWritten_writeString s).ofText?_eq
  plain h := by
    rw [ofList_writeString, Quoted.flatMap_escape_of_plain h, String.ofList_toList]

lemma ofList_decimal (n : ℕ) : String.ofList (Text.decimal n) = toString n := rfl

lemma ofList_writeInteger (n : ℤ) : String.ofList (writeInteger n) = toString n := by
  cases n with
  | ofNat n => rfl
  | negSucc n =>
    rw [writeInteger, String.ofList_cons]
    rfl

lemma isPrintable_decimal (n : ℕ) : IsPrintable (Text.decimal n) := by
  intro c hc
  have hdigit := Text.isDigit_toNat (Text.isDigit_of_mem_decimal hc)
  omega

lemma isPrintable_writeInteger (n : ℤ) : IsPrintable (writeInteger n) := by
  cases n with
  | ofNat n => exact isPrintable_decimal n
  | negSucc n => exact isPrintable_cons (by decide) (isPrintable_decimal _)

end Json

namespace Response

open Json

inductive PrintedAs : Response → String → Prop
  | polynomial {text quoted : String} : IsQuoted text quoted →
      PrintedAs (.polynomial text) ("\x7b\"polynomial\":" ++ quoted ++ "\x7d")
  | value (n : Int64) : PrintedAs (.value n) ("\x7b\"result\":" ++ toString n.toInt ++ "\x7d")
  | error {code : ℕ} {message quoted : String} : IsQuoted message quoted →
      PrintedAs (.error code message)
        ("\x7b\"code\":" ++ toString code ++ ",\"message\":" ++ quoted ++ "\x7d")

lemma write_polynomial (text : String) : (polynomial text).write =
    "\x7b\"polynomial\":" ++ String.ofList (writeString text) ++ "\x7d" := by
  have hkey : writeString "polynomial" = "\"polynomial\"".toList := by decide
  apply String.toList_inj.mp
  simp [write, toJson, writeObject, separated, hkey]

lemma write_value (n : Int64) :
    (value n).write = "\x7b\"result\":" ++ toString n.toInt ++ "\x7d" := by
  have hkey : writeString "result" = "\"result\"".toList := by decide
  rw [← ofList_writeInteger]
  apply String.toList_inj.mp
  simp [write, toJson, writeObject, separated, hkey]

lemma write_error (code : ℕ) (message : String) : (error code message).write =
    "\x7b\"code\":" ++ toString code ++ ",\"message\":" ++ String.ofList (writeString message) ++
      "\x7d" := by
  have hcode : writeString "code" = "\"code\"".toList := by decide
  have hmessage : writeString "message" = "\"message\"".toList := by decide
  rw [← ofList_decimal]
  apply String.toList_inj.mp
  simp [write, toJson, writeObject, separated, hcode, hmessage]

lemma printedAs_write (r : Response) : r.PrintedAs r.write := by
  cases r with
  | polynomial text =>
    rw [write_polynomial]
    exact .polynomial (isQuoted_writeString text)
  | value n =>
    rw [write_value]
    exact .value n
  | error code message =>
    rw [write_error]
    exact .error (isQuoted_writeString message)

lemma isPrintable_toJson (r : Response) : IsPrintable r.toJson := by
  cases r with
  | polynomial text =>
    exact isPrintable_writeObject (List.forall_mem_singleton.mpr (isPrintable_writeString text))
  | value n =>
    exact isPrintable_writeObject (List.forall_mem_singleton.mpr (isPrintable_writeInteger _))
  | error code message =>
    apply isPrintable_writeObject
    rw [List.forall_mem_cons, List.forall_mem_singleton]
    exact ⟨isPrintable_decimal code, isPrintable_writeString message⟩

end Response

end Polycalc
