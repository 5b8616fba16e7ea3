import Polycalc.Toml.Value

namespace Polycalc.Toml

open Reader Space

inductive Line where
  | header (path : List String) (key : String)
  | element (path : List String) (key : String)
  | assignment (path : List String) (key : String) (v : Value)

namespace Line

def headerLine (left right : String) (line : List String → String → Line) : Reader Line := do
  exactly left
  let (path, key) ← Key.dotted
  exactly right
  restOfLine
  return line path key

def assignmentLine : Reader Line := do
  let ((path, key), v) ← Value.assignment Value.reader
  restOfLine
  return assignment path key v

def line : Reader (Option Line) := do
  match ← peek? with
  | some '#' => comment *> lineEnd *> pure none
  | some '\n' | some '\r' => newline *> pure none
  | some '[' => some <$> (headerLine "[[" "]]" element <|> headerLine "[" "]" header)
  | _ => some <$> assignmentLine

def document : Reader (List Line) := do
  let _ ← optional (char '\uFEFF')
  spaces
  let lines ← many (line <* spaces)
  return lines.filterMap id

end Line

inductive Target where
  | root
  | table (path : List String) (key : String)
  | element (path : List String) (key : String)

structure Document where
  root : Table
  current : Table
  target : Target

namespace Document

def empty : Document := ⟨.empty, .empty, .root⟩

def act (t : Table) (path : List String) (f : Table → Option (Unit × Table)) : Option Table :=
  (·.2) <$> t.at? false f path

def close (d : Document) : Option Table :=
  match d.target with
  | .root => some d.current
  | .table path key => act d.root path fun t => some ((), t.set key (.table d.current))
  | .element path key => act d.root path (Table.push key d.current)

def add (d : Document) : Line → Option Document
  | .assignment path key v => do return { d with current := ← d.current.assign path key v }
  | .header path key => do
    let (current, root) ← (← d.close).at? false (Table.detach key) path
    return ⟨root, current, .table path key⟩
  | .element path key => do
    return ⟨← act (← d.close) path (Table.ensureTables key), .empty, .element path key⟩

def read? (text : List Char) : Option Table :=
  Line.document.run? text >>= (·.foldlM add empty) >>= close

end Document

end Polycalc.Toml
