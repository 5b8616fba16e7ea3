import Polycalc.Failure
import Std.Data.HashMap

namespace Polycalc

inductive Record where
  | simplified (text : String)
  | failed (failure : Failure)
  deriving DecidableEq

namespace Record

def text? : Record → Option String
  | simplified s => some s
  | failed _ => none

def failure? : Record → Option Failure
  | simplified _ => none
  | failed f => some f

end Record

abbrev Query (σ α : Type) := ExceptT String (StateM σ) α

class Cache (σ : Type) where
  record? (raw : String) : Query σ (Option Record)
  putRecord (raw : String) (record : Record) : Query σ Unit
  value? (raw argument : String) : Query σ (Option Int64)
  /-- The record that goes with a value is linked to it and stored where there is none. -/
  putValue (raw argument : String) (value : Int64) (linked : Option Record) : Query σ Unit

structure Store where
  records : Std.HashMap String Record
  values : Std.HashMap (String × String) Int64

namespace Store

def empty : Store := ⟨∅, ∅⟩

def record? (s : Store) (raw : String) : Option Record := s.records[raw]?

def value? (s : Store) (raw argument : String) : Option Int64 := s.values[(raw, argument)]?

def putRecord (s : Store) (raw : String) (record : Record) : Store :=
  { s with records := s.records.insert raw record }

def link (s : Store) (raw : String) : Option Record → Store
  | none => s
  | some record => { s with records := s.records.insertIfNew raw record }

def putValue (s : Store) (raw argument : String) (value : Int64) (linked : Option Record) : Store :=
  let s := s.link raw linked
  { s with values := s.values.insert (raw, argument) value }

instance : Cache Store where
  record? raw s := (.ok (s.record? raw), s)
  putRecord raw record s := (.ok (), s.putRecord raw record)
  value? raw argument s := (.ok (s.value? raw argument), s)
  putValue raw argument value linked s := (.ok (), s.putValue raw argument value linked)

@[simp] theorem record?_putRecord (s : Store) (raw key : String) (r : Record) :
    (s.putRecord raw r).record? key = if raw = key then some r else s.record? key := by
  simp [record?, putRecord, Std.HashMap.getElem?_insert]

@[simp] theorem value?_putRecord (s : Store) (raw key x : String) (r : Record) :
    (s.putRecord raw r).value? key x = s.value? key x := rfl

@[simp] theorem record?_link (s : Store) (raw key : String) (linked : Option Record) :
    (s.link raw linked).record? key =
      if raw = key then s.record? key <|> linked else s.record? key := by
  cases linked with
  | none => by_cases h : raw = key <;> simp [link, h]
  | some r =>
    simp only [link, record?, Std.HashMap.getElem?_insertIfNew, beq_iff_eq]
    by_cases h : raw = key
    · subst h
      cases hs : s.records[raw]? with
      | none => simp [Std.HashMap.mem_iff_isSome_getElem?, hs]
      | some _ => simp [Std.HashMap.mem_iff_isSome_getElem?, hs]
    · simp [h]

@[simp] theorem value?_link (s : Store) (raw key x : String) (linked : Option Record) :
    (s.link raw linked).value? key x = s.value? key x := by cases linked <;> rfl

@[simp] theorem record?_putValue (s : Store) (raw x key : String) (v : Int64)
    (linked : Option Record) :
    (s.putValue raw x v linked).record? key = (s.link raw linked).record? key := rfl

@[simp] theorem value?_putValue (s : Store) (raw x key y : String) (v : Int64)
    (linked : Option Record) :
    (s.putValue raw x v linked).value? key y =
      if raw = key ∧ x = y then some v else s.value? key y := by
  rw [← value?_link s raw key y linked]
  simp [value?, putValue, Std.HashMap.getElem?_insert]

end Store

end Polycalc
