import Polycalc.Failure
import Polycalc.Json.Value
import Polycalc.Memo
import Polycalc.Polynomial.Printer
import Polycalc.Polynomial.Reader
import Polycalc.Text

namespace Polycalc

def Answer.simplified (raw : String) : Except Error String :=
  (fun p => p.simplify.render) <$> Polynomial.read raw

def Answer.value (raw : String) (x : Int64) : Except Error Int64 :=
  (·.evaluate x) <$> Polynomial.readCanonical raw

structure Request where
  polynomial : String
  argument : Option String
  deriving DecidableEq

namespace Request

open Json (Value)

def argument? : Option Value → Option (Option String)
  | none | some .null => some none
  | some v => some <$> v.string?

def ofJson? (v : Value) : Option Request :=
  match v.fields? ["polynomial", "x"] with
  | some [some p, x] => do return ⟨← p.string?, ← argument? x⟩
  | _ => none

def read? (line : String) : Option Request := Value.ofText? line.toList >>= ofJson?

def toJson (r : Request) : List Char :=
  Json.writeObject (("polynomial", Json.writeString r.polynomial) ::
    (r.argument.map fun x => ("x", Json.writeString x)).toList)

def write (r : Request) : String := String.ofList r.toJson

end Request

inductive Response where
  | polynomial (text : String)
  | value (result : Int64)
  | error (code : Nat) (message : String)
  deriving DecidableEq

namespace Response

def ofError (e : Error) : Response :=
  match e.failure? with
  | some f => error f.code f.message
  | none => error 999 e.message

def malformed : Option String → Response
  | none => error 400 "malformed request"
  | some reason => error 400 ("malformed request: " ++ reason)

def isError : Response → Bool
  | error .. => true
  | _ => false

def toJson : Response → List Char
  | polynomial s => Json.writeObject [("polynomial", Json.writeString s)]
  | value n => Json.writeObject [("result", Json.writeInteger n.toInt)]
  | error code message =>
    Json.writeObject [("code", Text.decimal code), ("message", Json.writeString message)]

def write (r : Response) : String := String.ofList r.toJson

end Response

/-- Why a line is no request, in the words of whoever reads it as JSON. -/
class Diagnosis where
  reason? (line : String) : Option String

/-- The reader at hand has no words for it. -/
instance (priority := low) silentDiagnosis : Diagnosis := ⟨fun _ => none⟩

namespace Memo

variable {σ : Type}

def respond {α : Type} (act : Action σ α) (f : α → Response) : StateM (Memo σ) Response := do
  match ← act.run with
  | .ok a => return f a
  | .error e => return .ofError e

variable [Cache σ]

def answer (r : Request) : StateM (Memo σ) Response :=
  match r.argument with
  | none => respond (simplify r.polynomial) .polynomial
  | some x => respond (evaluate r.polynomial x) .value

def IsBlankLine (line : String) : Prop := ∀ c ∈ line.toList, Text.isBlank c

instance : DecidablePred IsBlankLine := fun line =>
  List.decidableBAll (fun c => Text.isBlank c) line.toList

def answerLine [Diagnosis] (line : String) : StateM (Memo σ) (Option Response) :=
  if IsBlankLine line then return none
  else match Request.read? line with
    | none => return some (.malformed (Diagnosis.reason? line))
    | some r => some <$> answer r

end Memo

end Polycalc
