import Polycalc.Proofs.Memo.Transparency

namespace Polycalc

namespace Memo

variable {s : Session}

@[simp] lemma respond_snd {σ α : Type} (act : Action σ α) (f : α → Response) (m : Memo σ) :
    (respond act f m).2 = (act m).2 := by
  change (StateT.bind act.run _ m).2 = (act m).2
  rw [StateT.bind, ExceptT.run]
  rcases act m with ⟨e | a, m'⟩ <;> rfl

lemma answer_coherent (r : Request) (hs : s.cache.inner.Coherent) :
    (answer r s).2.cache.inner.Coherent := by
  rw [answer]
  cases r.argument with
  | none =>
    dsimp only
    rw [respond_snd]
    exact (simplify_sound r.polynomial hs).1
  | some x =>
    dsimp only
    rw [respond_snd]
    exact evaluate_coherent r.polynomial x hs

lemma answerLine_coherent [Diagnosis] (line : String) (hs : s.cache.inner.Coherent) :
    (answerLine line s).2.cache.inner.Coherent := by
  rw [answerLine]
  split_ifs
  · exact hs
  · cases Request.read? line with
    | none => exact hs
    | some r => exact answer_coherent r hs

end Memo

namespace Session

@[simp] lemma map_snd {α β : Type} (f : α → β) (act : StateM (Memo (Faulty Store)) α)
    (s : Session) : ((f <$> act) s).2 = (act s).2 := rfl

variable [Diagnosis]

lemma Step.coherent_run (step : Step) {s : Session} (hs : s.cache.inner.Coherent) :
    (step.run s).2.cache.inner.Coherent := by
  cases step with
  | simplify raw =>
    rw [run, map_snd]
    exact (Memo.simplify_sound raw hs).1
  | evaluate raw argument =>
    rw [run, map_snd]
    exact Memo.evaluate_coherent raw argument hs
  | answer r =>
    rw [run, map_snd]
    exact Memo.answer_coherent r hs
  | line text =>
    rw [run, map_snd]
    exact Memo.answerLine_coherent text hs
  | fail method fault => exact hs

lemma coherent_after {s : Session} (hs : s.cache.inner.Coherent) (steps : List Step) :
    (s.after steps).cache.inner.Coherent := by
  induction steps generalizing s with
  | nil => exact hs
  | cons step steps ih => exact ih (step.coherent_run hs)

lemma coherent_after_new (settings : Settings) (steps : List Step) :
    ((new settings).after steps).cache.inner.Coherent :=
  coherent_after Store.coherent_empty steps

/-- Whatever was asked and whichever calls were stopped, what is stored is what would be worked out
anew, and no value is without its record. -/
theorem stored_of_after_new (settings : Settings) (steps : List Step) :
    let t := ((new settings).after steps).cache.inner
    (∀ raw text, t.record? raw = some (.simplified text) → Answer.simplified raw = .ok text) ∧
    (∀ raw f, t.record? raw = some (.failed f) →
      Polynomial.read raw = .error (.polynomial f raw) ∧ f.kind ≠ .unsupportedArgument) ∧
    ∀ raw argument v, t.value? raw argument = some v →
      (∃ x p, Argument.read argument = .ok x ∧ Polynomial.read raw = .ok p ∧ p.evaluate x = v) ∧
      ∃ text, t.record? raw = some (.simplified text) := by
  intro t
  have ht : t.Coherent := coherent_after_new settings steps
  refine ⟨fun raw text h => ht.record h, fun raw f h => ?_, fun raw argument v h => ?_⟩
  · obtain ⟨f', heq, hkind⟩ := Polynomial.read_error (ht.failed h)
    cases heq
    exact ⟨ht.failed h, hkind⟩
  · obtain ⟨⟨x, p, hx, hp, hv⟩, hrecord⟩ := ht.value h
    obtain ⟨r, hr⟩ := Option.isSome_iff_exists.mp hrecord
    refine ⟨⟨x, p, hx, hp, hv⟩, ?_⟩
    cases r with
    | simplified text => exact ⟨text, hr⟩
    | failed f =>
      rw [ht.failed hr] at hp
      cases hp

/-- Whatever was asked before and whichever calls are stopped, a request ends in the error of a
store that does not respond, by a fault that is set, or in the answer that is worked out anew. -/
theorem transparent_after_new (settings : Settings) (steps : List Step) (raw argument : String) :
    let s := (new settings).after steps
    (s.StopsWith (Memo.simplify raw s).1 ∨ (Memo.simplify raw s).1 = Answer.simplified raw) ∧
    (s.StopsWith (Memo.evaluate raw argument s).1 ∨
      (∀ x, Argument.read argument = .ok x →
        (Memo.evaluate raw argument s).1 = (·.evaluate x) <$> Polynomial.read raw ∧
        (Text.trim raw.toList ≠ ['0'] →
          (Memo.evaluate raw argument s).1 = Answer.value raw x)) ∧
      ∀ e, Argument.read argument = .error e →
        e = .argument (.plain .unsupportedArgument) ∧
        (∀ p, Polynomial.read raw = .ok p → (Memo.evaluate raw argument s).1 = .error e) ∧
        ∀ e', Polynomial.read raw = .error e' → (Memo.evaluate raw argument s).1 =
          .error (if (s.cache.inner.record? raw).isSome then e' else e)) := by
  intro s
  have hs : s.cache.inner.Coherent := coherent_after_new settings steps
  refine ⟨(Memo.simplify_sound raw hs).2, ?_⟩
  cases harg : Argument.read argument with
  | ok x =>
    refine (Memo.evaluate_sound raw hs harg).2.imp_right fun hout => ⟨?_, ?_⟩
    · rintro _ ⟨⟩
      refine ⟨hout, fun hraw => ?_⟩
      rw [Answer.value, Polynomial.readCanonical, if_neg hraw]
      exact hout
    · intro e he
      cases he
  | error e =>
    refine (Memo.evaluate_sound_of_error raw hs harg).2.imp_right fun hout => ⟨?_, ?_⟩
    · intro x hx
      cases hx
    · rintro _ ⟨⟩
      refine ⟨Argument.read_error harg, fun p hp => ?_, fun e' he' => ?_⟩
      · rw [hout, Memo.refusal_of_ok hs hp]
      · rw [hout, Memo.refusal_of_error hs he']

end Session

end Polycalc
