import Polycalc.Proofs.Memo.Coherence

namespace Polycalc

open Session (Reaches StopsWith)
open Traversal

namespace Memo

variable {raw argument : String} {s s' : Session} {t : Store}

lemma SimplifyEnd.answer {out : Except Error String} (h : SimplifyEnd raw s out t)
    (hs : s.cache.inner.Coherent) : StopsWith s out ∨ out = Answer.simplified raw := by
  cases h with
  | stopped hstop => exact Or.inl ⟨_, rfl, hstop⟩
  | known hrecord =>
    obtain ⟨p, hread, rfl⟩ := hs.simplified hrecord
    exact Or.inr (Answer.simplified_eq_ok_iff.mpr ⟨p, hread, rfl⟩).symm
  | knownFailure hrecord =>
    rw [Answer.simplified, hs.failed hrecord]
    exact Or.inr rfl
  | rejected _ hread _ =>
    rw [Answer.simplified, hread]
    exact Or.inr rfl
  | computed _ hread => exact Or.inr (Answer.simplified_eq_ok_iff.mpr ⟨_, hread, rfl⟩).symm

lemma EvaluateEnd.answer {out : Except Error Int64} (h : EvaluateEnd raw argument s out t)
    (hs : s.cache.inner.Coherent) {x : Int64} (hx : Argument.read argument = .ok x) :
    StopsWith s out ∨ out = (·.evaluate x) <$> Polynomial.read raw := by
  cases h with
  | stopped hstop => exact Or.inl ⟨_, rfl, hstop⟩
  | halted _ _ _ hstop => exact Or.inl ⟨_, rfl, hstop⟩
  | known hvalue =>
    obtain ⟨⟨y, p, hy, hread, rfl⟩, -⟩ := hs.value hvalue
    obtain rfl := Except.ok.inj (hx.symm.trans hy)
    rw [hread]
    exact Or.inr rfl
  | knownFailure hrecord =>
    rw [hs.failed hrecord]
    exact Or.inr rfl
  | badArgument _ he =>
    rw [hx] at he
    cases he
  | unreadable hrecord _ he =>
    obtain ⟨p, hread, rfl⟩ := hs.simplified hrecord
    rw [rebuilt_render hread] at he
    cases he
  | rebuilt hrecord hy hq =>
    obtain ⟨p, hread, rfl⟩ := hs.simplified hrecord
    obtain rfl := Except.ok.inj ((rebuilt_render hread).symm.trans hq)
    obtain rfl := Except.ok.inj (hx.symm.trans hy)
    rw [Polynomial.evaluate_simplify, hread]
    exact Or.inr rfl
  | rejected _ _ hread _ =>
    rw [hread]
    exact Or.inr rfl
  | computed _ hy hread =>
    obtain rfl := Except.ok.inj (hx.symm.trans hy)
    rw [Polynomial.evaluate_simplify, hread]
    exact Or.inr rfl

def refusal (t : Store) (raw : String) (e : Error) : Error :=
  match t.record? raw with
  | some (.failed f) => .polynomial f raw
  | _ => e

lemma EvaluateEnd.answer_of_error {out : Except Error Int64}
    (h : EvaluateEnd raw argument s out t) (hs : s.cache.inner.Coherent) {e : Error}
    (he : Argument.read argument = .error e) :
    t = s.cache.inner ∧ (StopsWith s out ∨ out = .error (refusal s.cache.inner raw e)) := by
  have hnot : ∀ x, Argument.read argument ≠ .ok x := by simp [he]
  cases h with
  | stopped hstop => exact ⟨rfl, Or.inl ⟨_, rfl, hstop⟩⟩
  | known hvalue =>
    obtain ⟨⟨x, _, hx, -⟩, -⟩ := hs.value hvalue
    exact (hnot x hx).elim
  | knownFailure hrecord => exact ⟨rfl, Or.inr (by rw [refusal, hrecord])⟩
  | badArgument hrecord he' =>
    obtain rfl := Except.error.inj (he.symm.trans he')
    refine ⟨rfl, Or.inr ?_⟩
    rw [refusal]
    split
    · next f hf => exact (hrecord f hf).elim
    · rfl
  | unreadable _ hx _ | rebuilt _ hx _ | rejected _ hx _ _ | halted _ hx _ _ | computed _ hx _ =>
    exact (hnot _ hx).elim

lemma refusal_of_ok (ht : t.Coherent) {p : Polynomial} (hread : Polynomial.read raw = .ok p)
    (e : Error) : refusal t raw e = e := by
  rw [refusal]
  split
  · next f hf =>
    rw [ht.failed hf] at hread
    cases hread
  · rfl

lemma refusal_of_error (ht : t.Coherent) {e' : Error} (hread : Polynomial.read raw = .error e')
    (e : Error) : refusal t raw e = if (t.record? raw).isSome then e' else e := by
  rw [refusal]
  cases hrecord : t.record? raw with
  | none => rfl
  | some r =>
    cases r with
    | simplified text =>
      obtain ⟨p, hp, -⟩ := ht.simplified hrecord
      rw [hread] at hp
      cases hp
    | failed f => exact Except.error.inj ((ht.failed hrecord).symm.trans hread)

theorem simplify_sound (raw : String) (hs : s.cache.inner.Coherent) :
    (simplify raw s).2.cache.inner.Coherent ∧
      (StopsWith s (simplify raw s).1 ∨ (simplify raw s).1 = Answer.simplified raw) := by
  have once : ∀ (s : Session) out s', simplifyOnce raw s = (out, s') → s.cache.inner.Coherent →
      ∃ t : Store, t.Coherent ∧ Reaches s t s' ∧
        (StopsWith s out ∨ out = Answer.simplified raw) := by
    intro s out s' h hs
    obtain ⟨t, hend, hr⟩ := simplifyOnce_cases h
    exact ⟨t, hend.coherent hs, hr, hend.answer hs⟩
  obtain ⟨t, ht, hr, hout⟩ := retry_keeps once (n := s.settings.simplifyRetries) rfl hs
  exact ⟨hr.inner ▸ ht, hout⟩

theorem evaluate_sound (raw : String) (hs : s.cache.inner.Coherent) {x : Int64}
    (hx : Argument.read argument = .ok x) :
    (evaluate raw argument s).2.cache.inner.Coherent ∧
      (StopsWith s (evaluate raw argument s).1 ∨
        (evaluate raw argument s).1 = (·.evaluate x) <$> Polynomial.read raw) := by
  have once : ∀ (s : Session) out s', evaluateOnce raw argument s = (out, s') →
      s.cache.inner.Coherent → ∃ t : Store, t.Coherent ∧ Reaches s t s' ∧
        (StopsWith s out ∨ out = (·.evaluate x) <$> Polynomial.read raw) := by
    intro s out s' h hs
    obtain ⟨t, hend, hr⟩ := evaluateOnce_cases h
    exact ⟨t, hend.coherent hs, hr, hend.answer hs hx⟩
  obtain ⟨t, ht, hr, hout⟩ := retry_keeps once (n := s.settings.evaluateRetries) rfl hs
  exact ⟨hr.inner ▸ ht, hout⟩

theorem evaluate_sound_of_error (raw : String) (hs : s.cache.inner.Coherent) {e : Error}
    (he : Argument.read argument = .error e) :
    (evaluate raw argument s).2.cache.inner = s.cache.inner ∧
      (StopsWith s (evaluate raw argument s).1 ∨
        (evaluate raw argument s).1 = .error (refusal s.cache.inner raw e)) := by
  have once : ∀ (s₁ : Session) out s', evaluateOnce raw argument s₁ = (out, s') →
      s₁.cache.inner = s.cache.inner → ∃ t : Store, t = s.cache.inner ∧ Reaches s₁ t s' ∧
        (StopsWith s₁ out ∨ out = .error (refusal s.cache.inner raw e)) := by
    intro s₁ out s' h hinner
    obtain ⟨t, hend, hr⟩ := evaluateOnce_cases h
    rw [← hinner] at hs ⊢
    obtain ⟨ht, hout⟩ := hend.answer_of_error hs he
    exact ⟨t, ht, hr, hout⟩
  -- the store itself is what all attempts keep here, for the answer depends on it
  obtain ⟨t, ht, hr, hout⟩ := retry_keeps (I := (· = s.cache.inner)) once
    (n := s.settings.evaluateRetries) rfl rfl
  exact ⟨hr.inner.trans ht, hout⟩

lemma evaluate_coherent (raw argument : String) (hs : s.cache.inner.Coherent) :
    (evaluate raw argument s).2.cache.inner.Coherent := by
  cases harg : Argument.read argument with
  | ok x => exact (evaluate_sound raw hs harg).1
  | error e =>
    rw [(evaluate_sound_of_error raw hs harg).1]
    exact hs

end Memo

end Polycalc
