import Polycalc.Answer
import Polycalc.CommandLine.Help
import Polycalc.Settings.Reader
import Polycalc.Store
import Polycalc.Text

/-! Carrying out a command line: what goes to standard output and standard error, and the exit
status. Messages that are logged on standard error are left out. -/

namespace Polycalc.CommandLine

structure Outcome where
  status : Nat
  output : List String
  errors : List String
  deriving DecidableEq

namespace Outcome

def printed (lines : List String) : Outcome := ⟨0, lines, []⟩

def unusable (output : List String) (reason : String) : Outcome :=
  ⟨2, output, ["error: " ++ reason]⟩

def ofResponse (json : Bool) (r : Response) : Outcome :=
  let status := if r.isError then 1 else 0
  if json then ⟨status, [r.write], []⟩
  else match r with
    | .polynomial text => ⟨status, [text], []⟩
    | .value n => ⟨status, [String.ofList (Json.writeInteger n.toInt)], []⟩
    | .error _ message => ⟨status, [], [message]⟩

def ofResult (json : Bool) : Except Error Response → Outcome
  | .ok r => ofResponse json r
  | .error (.store reason) => unusable [] (Error.store reason).message
  | .error e => ofResponse json (.ofError e)

end Outcome

abbrev Calculator := Memo Store

namespace Calculator

def new (settings : Settings) : Calculator := Memo.new Store.empty settings

def answerLines [Diagnosis] : List (List UInt8) → Calculator → List String × Bool
  | [], _ => ([], true)
  | bytes :: rest, m =>
    match Text.decode? bytes with
    | none => ([], false)
    | some line =>
      let (response, m) := Memo.answerLine line m
      let (written, complete) := answerLines rest m
      (response.toList.map Response.write ++ written, complete)

def batch [Diagnosis] (m : Calculator) (input : ByteArray) : Outcome :=
  let (written, complete) := answerLines (Text.lines input.toList) m
  if complete then .printed written else .unusable written "standard input is not UTF-8"

def run [Diagnosis] (m : Calculator) (json : Bool) (input : ByteArray) : Command → Outcome
  | .simplify p => .ofResult json (Response.polynomial <$> (Memo.simplify p m).1)
  | .evaluate p x => .ofResult json (Response.value <$> (Memo.evaluate p x m).1)
  | .batch => m.batch input

end Calculator

namespace Invocation

def configPath? : Invocation → Option String
  | command options _ => options.config
  | _ => none

def readsInput : Invocation → Bool
  | command _ .batch => true
  | _ => false

def run [Diagnosis] (find : String → File) (input : ByteArray) : Invocation → Outcome
  | help topic => .printed topic.lines
  | version => .printed ["polyproc 0.1.0"]
  | command options c =>
    match Settings.load ((options.config.map find).getD .missing) with
    | none => .unusable [] "the configuration file cannot be used"
    | some settings => (Calculator.new settings).run options.json input c

end Invocation

def run [Diagnosis] (find : String → File) (input : ByteArray) (words : List String) : Outcome :=
  match Invocation.read? words with
  | some i => i.run find input
  | none => .unusable [] "unknown command line, try 'polyproc --help'"

end Polycalc.CommandLine
