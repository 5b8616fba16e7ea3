import Polycalc.Answer
import Polycalc.Store
import Polycalc.Store.Faulty

namespace Polycalc

abbrev Session := Memo (Faulty Store)

namespace Session

def new (settings : Settings) : Session := Memo.new ⟨Store.empty, Faults.none, []⟩ settings

inductive Step where
  | simplify (raw : String)
  | evaluate (raw argument : String)
  | answer (request : Request)
  | line (text : String)
  | fail (method : Method) (fault : Fault)
  deriving DecidableEq

inductive Reply where
  | text (outcome : Except Error String)
  | value (outcome : Except Error Int64)
  | response (response : Option Response)
  | done

def Step.run [Diagnosis] : Step → StateM Session Reply
  | simplify raw => .text <$> (Memo.simplify raw).run
  | evaluate raw argument => .value <$> (Memo.evaluate raw argument).run
  | answer r => (.response ∘ some) <$> Memo.answer r
  | line text => .response <$> Memo.answerLine text
  | fail method fault => fun s =>
    (.done, { s with cache := { s.cache with faults := s.cache.faults.set fault method } })

def after [Diagnosis] (s : Session) (steps : List Step) : Session :=
  steps.foldl (fun s step => (step.run s).2) s

inductive Access where
  | record? (raw : String)
  | putRecord (raw : String) (record : Record)
  | value? (raw argument : String)
  | putValue (raw argument : String) (value : Int64) (linked : Option Record)

inductive Access.Reply where
  | record (outcome : Except Error (Option Record))
  | value (outcome : Except Error (Option Int64))
  | stored (outcome : Except Error Unit)

def Access.run : Access → StateM Session Access.Reply
  | record? raw => .record <$> (Memo.query (Cache.record? raw)).run
  | putRecord raw record => .stored <$> (Memo.query (Cache.putRecord raw record)).run
  | value? raw argument => .value <$> (Memo.query (Cache.value? raw argument)).run
  | putValue raw argument value linked =>
    .stored <$> (Memo.query (Cache.putValue raw argument value linked)).run

def calls (s : Session) : List Call := s.cache.calls.reverse

def forgetCalls (s : Session) : Session := { s with cache := { s.cache with calls := [] } }

end Session

end Polycalc
