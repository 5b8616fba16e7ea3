import Polycalc.Argument
import Polycalc.Polynomial.Printer
import Polycalc.Polynomial.Reader
import Polycalc.Settings.Reader
import Polycalc.Store

/-! A memo answers requests from a cache and works out what the cache does not hold. A request is
tried again while the store does not respond and attempts are left. -/

namespace Polycalc

structure Memo (σ : Type) where
  cache : σ
  settings : Settings
  parses : Nat

namespace Memo

variable {σ α : Type}

def new (cache : σ) (settings : Settings) : Memo σ := ⟨cache, settings, 0⟩

abbrev Action (σ α : Type) := ExceptT Error (StateM (Memo σ)) α

def query (op : Query σ α) : Action σ α := fun m =>
  let (out, cache) := op m.cache
  (out.mapError .store, { m with cache })

def countParse : Action σ Unit := modify fun m => { m with parses := m.parses + 1 }

def retry (act : Action σ α) : Nat → Action σ α
  | 0 => act
  | n + 1 => fun m =>
    match act m with
    | (.error (.store _), m) => retry act n m
    | out => out

variable [Cache σ]

/-- A store that does not respond is no reason to hold the rejection back. -/
def rememberFailure (raw : String) (f : Failure) : Action σ Unit :=
  tryCatch (query (Cache.putRecord raw (.failed f))) fun _ => pure ()

def compute (raw : String) : Action σ Polynomial := do
  countParse
  match Polynomial.read raw with
  | .ok p => return p.simplify
  | .error e =>
    if let .polynomial f _ := e then rememberFailure raw f
    throw e

/-- Reads a stored canonical text; one with numerals too long to be read gives way to the text of
the request, which has been read before. -/
def rebuild (raw text : String) : Action σ Polynomial := do
  countParse
  match Polynomial.readCanonical text with
  | .ok p => return p
  | .error _ =>
    countParse
    match Polynomial.read raw with
    | .ok p => return p.simplify
    | .error e => throw e

def simplifyOnce (raw : String) : Action σ String := do
  match ← query (Cache.record? raw) with
  | some (.failed f) => throw (.polynomial f raw)
  | some (.simplified text) => return text
  | none =>
    let text := (← compute raw).render
    query (Cache.putRecord raw (.simplified text))
    return text

def restore (raw : String) : Option String → Action σ (Polynomial × String)
  | some text => return (← rebuild raw text, text)
  | none => do
    let p ← compute raw
    query (Cache.putRecord raw (.simplified p.render))
    return (p, p.render)

def evaluateOnce (raw argument : String) : Action σ Int64 := do
  if let some v ← query (Cache.value? raw argument) then return v
  let record ← query (Cache.record? raw)
  if let some (.failed f) := record then throw (.polynomial f raw)
  let x ← Argument.read argument
  let (p, text) ← restore raw (record.bind Record.text?)
  let v := p.evaluate x
  query (Cache.putValue raw argument v (some (.simplified text)))
  return v

def simplify (raw : String) : Action σ String := fun m =>
  retry (simplifyOnce raw) m.settings.simplifyRetries m

def evaluate (raw argument : String) : Action σ Int64 := fun m =>
  retry (evaluateOnce raw argument) m.settings.evaluateRetries m

end Memo

end Polycalc
