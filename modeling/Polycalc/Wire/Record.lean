import Polycalc.Json.Value
import Polycalc.Store

namespace Polycalc

open Json (Value)

namespace Failure

def Kind.ofJson? : Value → Option Kind
  | .string (some s) => ofName? s
  | .object [(some s, .null)] => ofName? s
  | _ => none

def ofJson? (v : Value) : Option Failure :=
  match v.fields? ["kind", "parameters"] with
  | some [some k, some ps] => do return ⟨← Kind.ofJson? k, ← ps.strings?⟩
  | _ => none

def toJson (f : Failure) : List Char :=
  Json.writeObject [("kind", Json.writeString f.kind.name),
    ("parameters", Json.writeArray (f.parameters.map Json.writeString))]

def read? (text : String) : Option Failure := Value.ofText? text.toList >>= ofJson?

def write (f : Failure) : String := String.ofList f.toJson

end Failure

namespace Record

def ofJson? : Value → Option Record
  | .object [(some "Simplified", v)] => simplified <$> v.string?
  | .object [(some "Failed", v)] => failed <$> Failure.ofJson? v
  | _ => none

def toJson : Record → List Char
  | simplified s => Json.writeObject [("Simplified", Json.writeString s)]
  | failed f => Json.writeObject [("Failed", f.toJson)]

def read? (text : String) : Option Record := Value.ofText? text.toList >>= ofJson?

def write (r : Record) : String := String.ofList r.toJson

end Record

end Polycalc
