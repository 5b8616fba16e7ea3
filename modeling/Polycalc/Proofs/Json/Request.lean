import Polycalc.Proofs.Json.Persistence
import Polycalc.Proofs.Json.Space

namespace Polycalc

open Json (Value)

namespace Request

def valuesAt (key : String) (ms : List (Option String × Value)) : List Value :=
  (ms.filter (·.1 == some key)).map (·.2)

inductive IsArgument : List Value → Option String → Prop
  | missing : IsArgument [] none
  | null : IsArgument [.null] none
  | text (x : String) : IsArgument [.string (some x)] (some x)

/-- An object with one text as its polynomial and no more than one argument, whatever its other
members are as long as their keys are texts, or an array of a polynomial and an argument. -/
inductive Decodes : Value → Request → Prop
  | object {ms : List (Option String × Value)} {p : String} {x : Option String} :
      (∀ m ∈ ms, m.1.isSome) → valuesAt "polynomial" ms = [.string (some p)] →
      IsArgument (valuesAt "x" ms) x → Decodes (.object ms) ⟨p, x⟩
  | array {p : String} {v : Value} {x : Option String} :
      IsArgument [v] x → Decodes (.array [.string (some p), v]) ⟨p, x⟩

def IsDecoded (r : Request) (line : String) : Prop :=
  ∃ v, Value.ofText? line.toList = some v ∧ Decodes v r

lemma string?_eq_some_iff {v : Value} {s : String} :
    v.string? = some s ↔ v = .string (some s) := by
  cases v <;> simp [Value.string?]

lemma argument?_eq_some_iff {v : Option Value} {x : Option String} :
    argument? v = some x ↔ IsArgument v.toList x := by
  constructor
  · intro h
    rw [argument?.eq_def] at h
    split at h
    · cases h
      exact .missing
    · cases h
      exact .null
    · obtain ⟨s, hs, rfl⟩ := Option.map_eq_some_iff.mp h
      rw [string?_eq_some_iff.mp hs]
      exact .text s
  · intro h
    cases v with
    | none =>
      cases h
      rfl
    | some v => cases h <;> rfl

lemma member?_eq_some_iff {ms : List (Option String × Value)} {key : String} {v : Option Value} :
    Value.member? ms key = some v ↔ valuesAt key ms = v.toList := by
  rw [Value.member?, valuesAt]
  rcases h : ms.filter (·.1 == some key) with _ | ⟨m, _ | ⟨m', rest⟩⟩ <;> rw [h] <;>
    cases v <;> simp

lemma fields?_object_eq_some_iff {ms : List (Option String × Value)} {p x : Option Value} :
    Value.fields? ["polynomial", "x"] (.object ms) = some [p, x] ↔
      (∀ m ∈ ms, m.1.isSome) ∧ valuesAt "polynomial" ms = p.toList ∧
        valuesAt "x" ms = x.toList := by
  rw [Value.fields?, ← member?_eq_some_iff, ← member?_eq_some_iff, ← List.all_eq_true]
  split_ifs with hkeys
  · rw [List.mapM_cons, List.mapM_cons, List.mapM_nil]
    cases Value.member? ms "polynomial" <;> cases Value.member? ms "x" <;> simp [hkeys]
  · simp [hkeys]

lemma IsArgument.exists_toList {vs : List Value} {x : Option String} (h : IsArgument vs x) :
    ∃ v : Option Value, vs = v.toList := by
  cases h with
  | missing => exact ⟨none, rfl⟩
  | null => exact ⟨some .null, rfl⟩
  | text x => exact ⟨some (.string (some x)), rfl⟩

lemma ofJson?_eq_some_of_fields? {v : Value} {p : String} {x : Option Value}
    {argument : Option String} (h : v.fields? ["polynomial", "x"] = some [some (.string (some p)), x])
    (hx : IsArgument x.toList argument) : ofJson? v = some ⟨p, argument⟩ := by
  rw [ofJson?, h]
  simp [Value.string?, argument?_eq_some_iff.mpr hx]

lemma ofJson?_eq_some_iff {v : Value} {r : Request} : ofJson? v = some r ↔ Decodes v r := by
  constructor
  · intro h
    rw [ofJson?] at h
    split at h
    · next p x hfields =>
      obtain ⟨s, hs, h⟩ := Option.bind_eq_some_iff.mp h
      obtain ⟨a, ha, h⟩ := Option.bind_eq_some_iff.mp h
      cases h
      rw [string?_eq_some_iff.mp hs] at hfields
      have harg := argument?_eq_some_iff.mp ha
      cases v with
      | object ms =>
        obtain ⟨hkeys, hp, hx⟩ := fields?_object_eq_some_iff.mp hfields
        rw [← hx] at harg
        exact .object hkeys hp harg
      | array vs =>
        rcases vs with _ | ⟨p', _ | ⟨x', _ | ⟨y, rest⟩⟩⟩
        case cons.cons.nil =>
          cases hfields
          exact .array harg
        all_goals cases hfields
      | _ => cases hfields
    · cases h
  · intro h
    cases h with
    | object hkeys hp hx =>
      obtain ⟨v, hv⟩ := hx.exists_toList
      rw [hv] at hx
      exact ofJson?_eq_some_of_fields? (fields?_object_eq_some_iff.mpr ⟨hkeys, hp, hv⟩) hx
    | @array p v x hx => exact ofJson?_eq_some_of_fields? (x := some v) rfl hx

lemma read?_eq_some_iff {line : String} {r : Request} : read? line = some r ↔ r.IsDecoded line := by
  rw [read?, Option.bind_eq_bind, Option.bind_eq_some_iff]
  simp only [ofJson?_eq_some_iff, IsDecoded]

lemma IsDecoded.unique {r r' : Request} {line : String} (h : r.IsDecoded line)
    (h' : r'.IsDecoded line) : r = r' := by
  rw [← read?_eq_some_iff] at h h'
  exact Option.some.inj (h.symm.trans h')

lemma isDecoded_write (r : Request) : r.IsDecoded r.write := read?_eq_some_iff.mp r.read?_write

lemma IsDecoded.not_isBlankLine {r : Request} {line : String} (h : r.IsDecoded line) :
    ¬ Memo.IsBlankLine line := by
  intro hblank
  obtain ⟨v, hv, -⟩ := h
  rw [Value.ofText?_of_isBlank hblank] at hv
  cases hv

end Request

end Polycalc
