import Polycalc.Answer
import Polycalc.Proofs.Json.Compact
import Polycalc.Wire.Record

namespace Polycalc

open Json

namespace Failure

def toValue (f : Failure) : Value :=
  .object [(some "kind", .string (some f.kind.name)),
    (some "parameters", .array (f.parameters.map fun p => .string (some p)))]

lemma isWritten_parameters (ps : List String) :
    List.Forall₂ IsWritten (ps.map writeString) (ps.map fun p => .string (some p)) := by
  induction ps with
  | nil => exact .nil
  | cons p ps ih => exact .cons (isWritten_writeString p) ih

lemma isWritten_toJson (f : Failure) : IsWritten f.toJson f.toValue := by
  apply isWritten_writeObject
  exact .cons ⟨rfl, isWritten_writeString _⟩
    (.cons ⟨rfl, isWritten_writeArray (isWritten_parameters f.parameters)⟩ .nil)

lemma strings?_map (ps : List String) :
    (Value.array (ps.map fun p => .string (some p))).strings? = some ps := by
  rw [Value.strings?]
  induction ps with
  | nil => rfl
  | cons p ps ih => simp [Value.string?, ih]

lemma ofJson?_toValue (f : Failure) : ofJson? f.toValue = some f := by
  simp [toValue, ofJson?, Value.fields?, Value.member?, Kind.ofJson?, Kind.ofName?_name,
    strings?_map]

lemma read?_write (f : Failure) : read? f.write = some f :=
  f.isWritten_toJson.read f.ofJson?_toValue

lemma isPrintable_toJson (f : Failure) : IsPrintable f.toJson := by
  apply isPrintable_writeObject
  simp only [List.forall_mem_cons, List.not_mem_nil, IsEmpty.forall_iff, implies_true, and_true]
  refine ⟨isPrintable_writeString _, isPrintable_writeArray ?_⟩
  intro w hw
  obtain ⟨p, -, rfl⟩ := List.mem_map.mp hw
  exact isPrintable_writeString p

end Failure

namespace Record

def toValue : Record → Value
  | simplified s => .object [(some "Simplified", .string (some s))]
  | failed f => .object [(some "Failed", f.toValue)]

lemma isWritten_toJson (r : Record) : IsWritten r.toJson r.toValue := by
  cases r with
  | simplified s => exact isWritten_writeObject (.cons ⟨rfl, isWritten_writeString s⟩ .nil)
  | failed f => exact isWritten_writeObject (.cons ⟨rfl, f.isWritten_toJson⟩ .nil)

lemma ofJson?_toValue (r : Record) : ofJson? r.toValue = some r := by
  cases r with
  | simplified s => rfl
  | failed f => simp [toValue, ofJson?, f.ofJson?_toValue]

lemma read?_write (r : Record) : read? r.write = some r :=
  r.isWritten_toJson.read r.ofJson?_toValue

lemma isPrintable_toJson (r : Record) : IsPrintable r.toJson := by
  cases r with
  | simplified s =>
    exact isPrintable_writeObject (List.forall_mem_singleton.mpr (isPrintable_writeString s))
  | failed f =>
    exact isPrintable_writeObject (List.forall_mem_singleton.mpr f.isPrintable_toJson)

end Record

namespace Request

def toValue (r : Request) : Value :=
  .object ((some "polynomial", .string (some r.polynomial)) ::
    (r.argument.map fun x => (some "x", .string (some x))).toList)

lemma isWritten_toJson (r : Request) : IsWritten r.toJson r.toValue := by
  obtain ⟨p, x⟩ := r
  apply isWritten_writeObject
  refine .cons ⟨rfl, isWritten_writeString p⟩ ?_
  cases x with
  | none => exact .nil
  | some x => exact .cons ⟨rfl, isWritten_writeString x⟩ .nil

lemma ofJson?_toValue (r : Request) : ofJson? r.toValue = some r := by
  obtain ⟨p, x⟩ := r
  cases x <;> simp [toValue, ofJson?, Value.fields?, Value.member?, Value.string?, argument?]

lemma read?_write (r : Request) : read? r.write = some r :=
  r.isWritten_toJson.read r.ofJson?_toValue

end Request

/-- What is stored as JSON is read back as it was, and so are its code, its message and whatever is
answered from it. No control character is left in the text. -/
theorem stored_json_is_lossless (f : Failure) (r : Record) :
    (Failure.read? f.write = some f ∧ ∀ c ∈ f.write.toList, 32 ≤ c.toNat) ∧
    Record.read? r.write = some r ∧ ∀ c ∈ r.write.toList, 32 ≤ c.toNat := by
  refine ⟨⟨f.read?_write, ?_⟩, r.read?_write, ?_⟩
  · rw [Failure.write, String.toList_ofList]
    exact f.isPrintable_toJson
  · rw [Record.write, String.toList_ofList]
    exact r.isPrintable_toJson

end Polycalc
