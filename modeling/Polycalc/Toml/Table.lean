/-! A table is implicit if it was only passed through on the way to another, and dotted if that was
in a dotted key; which of them may still be extended depends on this. -/

namespace Polycalc.Toml

inductive Value where
  | text (s : String)
  | integer (n : Int)
  | other

structure Bindings (ι : Type) where
  isImplicit : Bool
  isDotted : Bool
  items : List (String × ι)

inductive Item where
  | value (v : Value)
  | table (t : Bindings Item)
  | tables (ts : List (Bindings Item))

abbrev Table := Bindings Item

namespace Table

def empty : Table := ⟨false, false, []⟩

def get? (t : Table) (key : String) : Option Item := t.items.lookup key

def set (t : Table) (key : String) (item : Item) : Table :=
  { t with items := (key, item) :: t.items.filter (·.1 != key) }

def erase (t : Table) (key : String) : Table :=
  { t with items := t.items.filter (·.1 != key) }

/-- Works on the table at the end of a path and puts it back. Tables that are missing on the way
are made; in an array of tables the way leads through the latest. A dotted key does not lead through
a table that has a header of its own. -/
def at? {α : Type} (dotted : Bool) (act : Table → Option (α × Table)) :
    List String → Table → Option (α × Table)
  | [], t => act t
  | key :: path, t =>
    match t.get? key with
    | none => (at? dotted act path ⟨true, dotted, []⟩).map fun (a, u) => (a, t.set key (.table u))
    | some (.table u) =>
      if dotted && !u.isImplicit then none
      else (at? dotted act path u).map fun (a, u) => (a, t.set key (.table u))
    | some (.tables (u :: us)) =>
      (at? dotted act path u).map fun (a, u) => (a, t.set key (.tables (u :: us)))
    | some _ => none

def insertNew (key : String) (item : Item) (t : Table) : Option (Unit × Table) :=
  if (t.get? key).isSome then none else some ((), t.set key item)

/-- A dotted key extends only tables that dotted keys have made. -/
def assign (t : Table) (path : List String) (key : String) (v : Value) : Option Table :=
  let act (u : Table) := if u.isDotted == path.isEmpty then none else insertNew key (.value v) u
  (·.2) <$> at? true act path t

def detach (key : String) (t : Table) : Option (Table × Table) :=
  match t.get? key with
  | none => some (empty, t)
  | some (.table u) =>
    if u.isImplicit && !u.isDotted then some ({ u with isImplicit := false }, t.erase key) else none
  | some _ => none

def ensureTables (key : String) (t : Table) : Option (Unit × Table) :=
  match t.get? key with
  | none => some ((), t.set key (.tables []))
  | some (.tables _) => some ((), t)
  | some _ => none

def push (key : String) (u : Table) (t : Table) : Option (Unit × Table) :=
  match t.get? key with
  | some (.tables us) => some ((), t.set key (.tables (u :: us)))
  | _ => none

end Table

end Polycalc.Toml
