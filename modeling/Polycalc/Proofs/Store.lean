import Mathlib.Data.Finset.Card
import Mathlib.Data.List.Induction
import Mathlib.Tactic.Common
import Polycalc.Session

namespace Polycalc

open Session (Access)

lemma size_eq_card {α β : Type} [DecidableEq α] [BEq α] [LawfulBEq α] [Hashable α]
    {m : Std.HashMap α β} {s : Finset α} (h : ∀ a, m[a]?.isSome ↔ a ∈ s) : m.size = s.card := by
  rw [← Std.HashMap.length_keys, ← List.toFinset_card_of_nodup Std.HashMap.nodup_keys]
  congr 1
  ext a
  rw [List.mem_toFinset, Std.HashMap.mem_keys, Std.HashMap.mem_iff_isSome_getElem?, h]

namespace Session.Access

def put? (raw : String) : Access → Option Record
  | putRecord key record => if key = raw then some record else none
  | _ => none

def linked? (raw : String) : Access → Option Record
  | putValue key _ _ linked => if key = raw then linked else none
  | _ => none

def result? (raw argument : String) : Access → Option Int64
  | putValue key x value _ => if (key, x) = (raw, argument) then some value else none
  | _ => none

def recordKey? : Access → Option String
  | putRecord key _ => some key
  | putValue key _ _ (some _) => some key
  | _ => none

def valueKey? : Access → Option (String × String)
  | putValue key x _ _ => some (key, x)
  | _ => none

variable {raw argument : String} {a : Access}

lemma recordKey?_eq_some_iff :
    a.recordKey? = some raw ↔ (a.put? raw).isSome ∨ (a.linked? raw).isSome := by
  cases a with
  | record? | value? => simp [recordKey?, put?, linked?]
  | putRecord key record => by_cases h : key = raw <;> simp [recordKey?, put?, linked?, h]
  | putValue key x value linked =>
    cases linked <;> by_cases h : key = raw <;> simp [recordKey?, put?, linked?, h]

lemma valueKey?_eq_some_iff :
    a.valueKey? = some (raw, argument) ↔ (a.result? raw argument).isSome := by
  cases a with
  | record? | value? | putRecord => simp [valueKey?, result?]
  | putValue key x value linked =>
    by_cases h : (key, x) = (raw, argument) <;> simp [valueKey?, result?, h]

end Session.Access

namespace History

/-- The latest record that was put under `raw`, or else the earliest that was linked to it. -/
def record? (history : List Access) (raw : String) : Option Record :=
  (history.reverse.findSome? (·.put? raw)).or (history.findSome? (·.linked? raw))

def value? (history : List Access) (raw argument : String) : Option Int64 :=
  history.reverse.findSome? (·.result? raw argument)

def recordKeys (history : List Access) : Finset String :=
  (history.filterMap (·.recordKey?)).toFinset

def valueKeys (history : List Access) : Finset (String × String) :=
  (history.filterMap (·.valueKey?)).toFinset

variable {history : List Access} {raw argument : String}

lemma record?_append (history : List Access) (a : Access) (raw : String) :
    record? (history ++ [a]) raw =
      (a.put? raw).or ((record? history raw).or (a.linked? raw)) := by
  simp only [record?, List.reverse_append, List.reverse_singleton, List.findSome?_append,
    List.findSome?_singleton, Option.or_assoc]

lemma value?_append (history : List Access) (a : Access) (raw argument : String) :
    value? (history ++ [a]) raw argument =
      (a.result? raw argument).or (value? history raw argument) := by
  simp only [value?, List.reverse_append, List.reverse_singleton, List.findSome?_append,
    List.findSome?_singleton]

lemma mem_recordKeys : raw ∈ recordKeys history ↔ (record? history raw).isSome := by
  rw [recordKeys, List.mem_toFinset, List.mem_filterMap]
  simp only [Access.recordKey?_eq_some_iff, record?]
  simp [List.findSome?_isSome_iff, and_or_left, exists_or]

lemma mem_valueKeys :
    (raw, argument) ∈ valueKeys history ↔ (value? history raw argument).isSome := by
  rw [valueKeys, List.mem_toFinset, List.mem_filterMap]
  simp only [Access.valueKey?_eq_some_iff, value?]
  simp [List.findSome?_isSome_iff]

end History

namespace Store

def perform (s : Store) : Access → Store
  | .record? raw => (Cache.record? raw s).2
  | .putRecord raw record => (Cache.putRecord raw record s).2
  | .value? raw argument => (Cache.value? raw argument s).2
  | .putValue raw argument value linked => (Cache.putValue raw argument value linked s).2

def after (history : List Access) : Store := history.foldl perform empty

lemma after_append (history : List Access) (a : Access) :
    after (history ++ [a]) = (after history).perform a := List.foldl_concat ..

lemma record?_perform (s : Store) (a : Access) (raw : String) :
    (s.perform a).record? raw = (a.put? raw).or ((s.record? raw).or (a.linked? raw)) := by
  cases a with
  | record? | value? => exact (Option.or_none).symm
  | putRecord key record =>
    change (s.putRecord key record).record? raw = _
    by_cases h : key = raw <;> simp [Access.put?, Access.linked?, h]
  | putValue key x value linked =>
    change (s.putValue key x value linked).record? raw = _
    by_cases h : key = raw <;> simp [Access.put?, Access.linked?, h]

lemma value?_perform (s : Store) (a : Access) (raw argument : String) :
    (s.perform a).value? raw argument = (a.result? raw argument).or (s.value? raw argument) := by
  cases a with
  | record? | value? | putRecord => rfl
  | putValue key x value linked =>
    change (s.putValue key x value linked).value? raw argument = _
    by_cases h : key = raw ∧ x = argument <;> simp [Access.result?, h]

theorem record?_after (history : List Access) (raw : String) :
    (after history).record? raw = History.record? history raw := by
  -- from the end of the history, for an access meets what those before it have left
  induction history using List.reverseRecOn with
  | nil => simp [after, empty, record?, History.record?]
  | append_singleton history a ih =>
    rw [after_append, record?_perform, ih, History.record?_append]

theorem value?_after (history : List Access) (raw argument : String) :
    (after history).value? raw argument = History.value? history raw argument := by
  induction history using List.reverseRecOn with
  | nil => simp [after, empty, value?, History.value?]
  | append_singleton history a ih =>
    rw [after_append, value?_perform, ih, History.value?_append]

lemma records_size_after (history : List Access) :
    (after history).records.size = (History.recordKeys history).card := by
  apply size_eq_card
  intro raw
  rw [History.mem_recordKeys, ← record?_after]
  rfl

lemma values_size_after (history : List Access) :
    (after history).values.size = (History.valueKeys history).card := by
  apply size_eq_card
  rintro ⟨raw, argument⟩
  rw [History.mem_valueKeys, ← value?_after]
  rfl

/-- Whatever was put and asked before, a store answers from the history and stays as it is; and it
has as many entries as there are keys for which the history has something. -/
theorem store_answers_from_history (history : List Access) :
    let s := after history
    (∀ raw, (Cache.record? raw : Query Store (Option Record)) s =
      (.ok (History.record? history raw), s)) ∧
    (∀ raw argument, (Cache.value? raw argument : Query Store (Option Int64)) s =
      (.ok (History.value? history raw argument), s)) ∧
    s.records.size = (History.recordKeys history).card ∧
    (∀ raw, raw ∈ History.recordKeys history ↔ (History.record? history raw).isSome) ∧
    s.values.size = (History.valueKeys history).card ∧
    ∀ raw argument, (raw, argument) ∈ History.valueKeys history ↔
      (History.value? history raw argument).isSome := by
  intro s
  refine ⟨?_, ?_, records_size_after history, fun _ => History.mem_recordKeys,
    values_size_after history, fun _ _ => History.mem_valueKeys⟩
  · intro raw
    rw [← record?_after]
    rfl
  · intro raw argument
    rw [← value?_after]
    rfl

end Store

end Polycalc
