import Polycalc.CommandLine.Run
import Polycalc.Proofs.Json.Response
import Polycalc.Proofs.Memo.Lines

namespace Polycalc

open CommandLine (Calculator Command Invocation Options Outcome)
open Memo (answer answerLine simplify evaluate)

def Request.command : Request → Command
  | ⟨p, none⟩ => .simplify p
  | ⟨p, some x⟩ => .evaluate p x

lemma answer_new (settings settings' : Settings) (r : Request) :
    (answer r (Calculator.new settings)).1 = (answer r (Calculator.new settings')).1 := by
  -- Each answer is a function of the texts alone as long as what is stored is true of its key.
  have hm : ∀ s, (Calculator.new s).cache.Coherent := fun _ => Store.coherent_empty
  obtain ⟨raw, argument⟩ := r
  cases argument with
  | none =>
    simp only [answer, Memo.respond_fst, (Memo.Direct.simplify_sound (hm _) raw).2]
  | some argument =>
    simp only [answer, Memo.respond_fst]
    cases harg : Argument.read argument with
    | ok x => simp only [Memo.Direct.evaluate_answer (hm _) raw harg]
    | error e =>
      simp only [Memo.Direct.evaluate_answer_of_error (hm _) raw harg]
      rfl

namespace CommandLine

lemma Outcome.ofResult_eq {α : Type} (json : Bool) (f : α → Response) {out : Except Error α}
    (h : ∀ r, out ≠ .error (.store r)) :
    ofResult json (f <$> out) = ofResponse json (.ofOutcome f out) := by
  match out with
  | .ok a => rfl
  | .error (.polynomial f raw) => rfl
  | .error (.argument f) => rfl
  | .error (.store r) => exact absurd rfl (h r)

lemma Calculator.run_command [Diagnosis] (m : Calculator) (json : Bool) (input : ByteArray)
    (r : Request) : m.run json input r.command = .ofResponse json (answer r m).1 := by
  obtain ⟨raw, argument⟩ := r
  cases argument with
  | none =>
    simp only [answer, Memo.respond_fst]
    apply Outcome.ofResult_eq
    exact Memo.Direct.simplify_ne_unanswered raw m
  | some argument =>
    simp only [answer, Memo.respond_fst]
    apply Outcome.ofResult_eq
    exact Memo.Direct.evaluate_ne_unanswered raw argument m

/-- Whatever the settings are, the command line prints the response that a fresh calculator gives to
the request as a line of JSON, and its status is 1 if that is an error and 0 otherwise. -/
theorem run_prints_response [Diagnosis] (find : String → File) (input : ByteArray)
    (words : List String) (options : Options) (r : Request) (settings : Settings)
    (hwords : Invocation.read? words = some (.command options r.command))
    (hsettings : Settings.load ((options.config.map find).getD .missing) = some settings) :
    ∃ response, (answerLine r.write (Calculator.new .default)).1 = some response ∧
      (run find input words).status = (if response.isError then 1 else 0) ∧
      (options.json = true →
        (run find input words).output = [response.write] ∧ response.PrintedAs response.write ∧
        (run find input words).errors = []) ∧
      (options.json = false →
        match response with
        | .polynomial text =>
          (run find input words).output = [text] ∧ (run find input words).errors = []
        | .value n =>
          (run find input words).output = [toString n.toInt] ∧ (run find input words).errors = []
        | .error _ message =>
          (run find input words).output = [] ∧ (run find input words).errors = [message]) := by
  have hline : (answerLine r.write (Calculator.new .default)).1 =
      some (answer r (Calculator.new .default)).1 := by
    rw [Memo.answerLine_of_isDecoded r.isDecoded_write]
  have hrun : run find input words =
      .ofResponse options.json (answer r (Calculator.new .default)).1 := by
    rw [run, hwords]
    dsimp only
    rw [Invocation.run, hsettings]
    dsimp only
    rw [Calculator.run_command, answer_new settings .default r]
  refine ⟨_, hline, ?_⟩
  rw [hrun]
  generalize (answer r (Calculator.new .default)).1 = response
  obtain ⟨config, json⟩ := options
  cases json with
  | true => simp [Outcome.ofResponse, response.printedAs_write]
  | false =>
    cases response with
    | polynomial text => simp [Outcome.ofResponse, Response.isError]
    | value n => simp [Outcome.ofResponse, Response.isError, Json.ofList_writeInteger]
    | error code message => simp [Outcome.ofResponse, Response.isError]

theorem run_prints_response_to_quoted_text :
    let options : Options := ⟨some "settings.toml", true⟩
    let words := ["--config", "settings.toml", "evaluate", "--json", "x + \"y\"", "-3"]
    let find : String → File := fun _ => .content "evaluate_attempts = 0".toUTF8
    let r : Request := ⟨"x + \"y\"", some "-3"⟩
    let response := Response.error 1 (Failure.plain .unsupportedPolynomial).message
    (Invocation.read? words = some (.command options r.command) ∧
      Settings.load ((options.config.map find).getD .missing) = some ⟨2, 0, none⟩) ∧
    (answerLine r.write (Calculator.new .default)).1 = some response ∧
    (run find .empty words).status = 1 ∧
    (run find .empty words).output = [
      "\x7b\"code\":1,\"message\":\"Unsupported polynomial type. " ++
      "The example of a correct polynomial: '(x^2 - 5) * (2*x + 2)', '3*x^3 - 7*x + 1'\"\x7d"] ∧
    (run find .empty words).errors = [] := by
  intro options words find r response
  have hwords : Invocation.read? words = some (.command options r.command) := by decide
  have hsettings : Settings.load ((options.config.map find).getD .missing) =
      some ⟨2, 0, none⟩ := by decide +kernel
  have hrecorded : r.IsRecorded := by decide
  have hresponse : (answerLine r.write (Calculator.new .default)).1 = some response := by
    rw [Memo.answerLine_of_isDecoded r.isDecoded_write]
    dsimp only
    rw [Memo.answer_of_not_isRefused Store.coherent_empty fun h => h.2 hrecorded]
    decide +kernel
  obtain ⟨response', hresponse', hstatus, hjson, -⟩ :=
    run_prints_response find .empty words options r _ hwords hsettings
  obtain rfl : response' = response := Option.some.inj (hresponse'.symm.trans hresponse)
  obtain ⟨houtput, -, herrors⟩ := hjson rfl
  refine ⟨⟨hwords, hsettings⟩, hresponse, hstatus, ?_, herrors⟩
  rw [houtput]
  decide +kernel

end CommandLine

end Polycalc
