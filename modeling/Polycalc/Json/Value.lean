import Polycalc.Json.Quoted
import Polycalc.Json.Token

namespace Polycalc.Json

inductive Value where
  | null
  | boolean (b : Bool)
  | number
  | string (s : Option String)
  | array (elements : List Value)
  | object (members : List (Option String × Value))

namespace Value

mutual

def next? : Nat → List Token → Option (Value × List Token)
  | 0, _ => none
  | n + 1, ts =>
    match ts with
    | .null :: r => some (.null, r)
    | .boolean b :: r => some (.boolean b, r)
    | .number :: r => some (.number, r)
    | .string s :: r => some (.string s, r)
    | .openArray :: .closeArray :: r => some (.array [], r)
    | .openArray :: r => do
      let (vs, r) ← elements? n r
      return (.array vs, r)
    | .openObject :: .closeObject :: r => some (.object [], r)
    | .openObject :: r => do
      let (ms, r) ← members? n r
      return (.object ms, r)
    | _ => none

def elements? : Nat → List Token → Option (List Value × List Token)
  | 0, _ => none
  | n + 1, ts => do
    match ← next? n ts with
    | (v, .closeArray :: r) => return ([v], r)
    | (v, .comma :: r) =>
      let (vs, r) ← elements? n r
      return (v :: vs, r)
    | _ => none

def members? : Nat → List Token → Option (List (Option String × Value) × List Token)
  | n + 1, .string key :: .colon :: r => do
    match ← next? n r with
    | (v, .closeObject :: r) => return ([(key, v)], r)
    | (v, .comma :: r) =>
      let (ms, r) ← members? n r
      return ((key, v) :: ms, r)
    | _ => none
  | _, _ => none

end

def ofTokens? (ts : List Token) : Option Value :=
  -- a step takes a token or goes on to the value at hand
  match next? (2 * ts.length) ts with
  | some (v, []) => some v
  | _ => none

def ofText? (cs : List Char) : Option Value := Token.ofText? cs >>= ofTokens?

def string? : Value → Option String
  | .string s => s
  | _ => none

def strings? : Value → Option (List String)
  | .array vs => vs.mapM string?
  | _ => none

def member? (ms : List (Option String × Value)) (key : String) : Option (Option Value) :=
  match ms.filter (·.1 == some key) with
  | [] => some none
  | [(_, v)] => some (some v)
  | _ => none

/-- The fields of a record with the given keys: the members of an object, of which others are passed
over, or the elements of an array, one for each key. -/
def fields? (keys : List String) : Value → Option (List (Option Value))
  | .array vs => if vs.length = keys.length then some (vs.map some) else none
  | .object ms => if ms.all (·.1.isSome) then keys.mapM (member? ms) else none
  | _ => none

end Value

def writeString (s : String) : List Char := Quoted.encode s.toList

def separated : List (List Char) → List Char
  | [] => []
  | [w] => w
  | w :: r => w ++ ',' :: separated r

def writeArray (ws : List (List Char)) : List Char := '[' :: separated ws ++ [']']

def writeObject (ms : List (String × List Char)) : List Char :=
  '\x7b' :: separated (ms.map fun (key, w) => writeString key ++ ':' :: w) ++ ['\x7d']

def writeInteger : Int → List Char
  | .ofNat n => Text.decimal n
  | .negSucc n => '-' :: Text.decimal (n + 1)

end Polycalc.Json
