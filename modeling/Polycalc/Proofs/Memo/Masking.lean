import Polycalc.Proofs.Memo.Direct
import Polycalc.Proofs.Memo.Stops

namespace Polycalc

def Session.direct (s : Session) : Memo Store := ⟨s.cache.inner, s.settings, s.parses⟩

namespace Memo

open Session (stops)

section Attempts

variable {σ α : Type}

inductive Attempts (once : Action σ α) : Memo σ → List (Except Error α) → Memo σ → Prop
  | nil {m : Memo σ} : Attempts once m [] m
  | cons {m m₁ m' : Memo σ} {out : Except Error α} {outs : List (Except Error α)} :
      once m = (out, m₁) → Attempts once m₁ outs m' → Attempts once m (out :: outs) m'

def unanswered (reason : String) : Except Error α := .error (.store reason)

theorem attempts_retry (once : Action σ α) (n : ℕ) (m : Memo σ) : ∃ reasons : List String,
    Attempts once m (reasons.map unanswered ++ [(retry once n m).1]) (retry once n m).2 ∧
      reasons.length ≤ n ∧ ∀ r, (retry once n m).1 = unanswered r → reasons.length = n := by
  induction n generalizing m with
  | zero => exact ⟨[], .cons rfl .nil, Nat.le_refl 0, fun _ _ => rfl⟩
  | succ n ih =>
    rcases honce : once m with ⟨out, m₁⟩
    by_cases hout : ∃ r, out = .error (.store r)
    · obtain ⟨r, rfl⟩ := hout
      obtain ⟨reasons, hattempts, hle, heq⟩ := ih m₁
      have hretry : retry once (n + 1) m = retry once n m₁ := by simp only [retry, honce]
      rw [hretry]
      refine ⟨r :: reasons, .cons honce hattempts, Nat.succ_le_succ hle, fun r' hr' => ?_⟩
      exact congrArg (· + 1) (heq r' hr')
    · have hanswered : ∀ r, out ≠ .error (.store r) := not_exists.mp hout
      rw [retry_of_answered honce hanswered]
      exact ⟨[], .cons honce .nil, Nat.zero_le _, fun r hr => absurd hr (hanswered r)⟩

end Attempts

variable {α : Type} {raw argument : String} {s s' : Session}

inductive Disturbed (raw : String) (request : Action Store α) (m : Memo Store) :
    Except Error α → Store → Prop
  | stopped {r : String} (m₁ : Memo Store) : (request m₁).1 = (request m).1 →
      (request m₁).2.cache = (request m).2.cache →
      Disturbed raw request m (unanswered r) m₁.cache
  | undisturbed : Disturbed raw request m (request m).1 (request m).2.cache
  | forgotten {f : Failure} {t : Store} : (request m).1 = .error (.polynomial f raw) →
      t.record? raw = none → (request m).2.cache = t.putRecord raw (.failed f) →
      Disturbed raw request m (.error (.polynomial f raw)) t

namespace Disturbed

variable {request : Action Store α} {m : Memo Store} {out : Except Error α}

lemma of_eq {m' : Memo Store} (h : request m = (out, m')) :
    Disturbed raw request m out m'.cache := by
  have hself : Disturbed raw request m _ _ := undisturbed
  rwa [h] at hself

lemma of_canStop {e : Error} (h : s.CanStop e) (m : Memo Store) :
    Disturbed raw request m (.error e) m.cache := by
  obtain ⟨k, -, rfl⟩ := h
  exact stopped m rfl rfl

lemma of_rejects {f : Failure} {m' : Memo Store} {t : Store}
    (h : request m = (.error (.polynomial f raw), m')) (hrecord : m.cache.record? raw = none)
    (hcache : m'.cache = m.cache.putRecord raw (.failed f)) (ht : Rejects raw f m.cache t) :
    Disturbed raw request m (.error (.polynomial f raw)) t := by
  rcases ht with rfl | rfl
  · exact forgotten (congrArg Prod.fst h) hrecord (congrArg (·.2.cache) h |>.trans hcache)
  · rw [← hcache]
    exact of_eq h

end Disturbed

lemma simplifyOnce_disturbed {out : Except Error String} (h : simplifyOnce raw s = (out, s'))
    {m : Memo Store} (hm : s.cache.inner = m.cache) :
    Disturbed raw (simplify raw) m out s'.cache.inner := by
  obtain ⟨t, hend, hr⟩ := simplifyOnce_cases h
  rw [hr.inner]
  obtain ⟨t₀, settings, parses⟩ := m
  subst hm
  cases hend with
  | stopped hstop => exact .of_canStop hstop _
  | known hrecord => exact .of_eq (Direct.simplify_known hrecord)
  | knownFailure hrecord => exact .of_eq (Direct.simplify_knownFailure hrecord)
  | computed hrecord hread => exact .of_eq (Direct.simplify_computed hrecord hread)
  | rejected hrecord hread ht =>
    exact .of_rejects (Direct.simplify_rejected hrecord hread) hrecord rfl ht

lemma evaluateOnce_disturbed {out : Except Error Int64}
    (h : evaluateOnce raw argument s = (out, s')) {m : Memo Store}
    (hm : s.cache.inner = m.cache) :
    Disturbed raw (evaluate raw argument) m out s'.cache.inner := by
  obtain ⟨t₀, settings, parses⟩ := m
  subst hm
  cases hvalue : s.cache.inner.value? raw argument with
  | some v =>
    obtain ⟨⟨e, rfl, hstop⟩ | rfl, hr⟩ := evaluateOnce_of_value hvalue h <;> rw [hr.inner]
    · exact .of_canStop hstop _
    · exact .of_eq (Direct.evaluate_known hvalue)
  | none =>
    obtain ⟨t, hend, hr⟩ := evaluateOnce_cases h
    rw [hr.inner]
    cases hend with
    | stopped hstop => exact .of_canStop hstop _
    | known hknown =>
      rw [hvalue] at hknown
      cases hknown
    | knownFailure hrecord => exact .of_eq (Direct.evaluate_knownFailure hvalue hrecord)
    | badArgument hrecord harg => exact .of_eq (Direct.evaluate_badArgument hvalue hrecord harg)
    | unreadable hrecord harg hread =>
      exact .of_eq (Direct.evaluate_unreadable hvalue hrecord harg hread)
    | rebuilt hrecord harg hread =>
      exact .of_eq (Direct.evaluate_rebuilt hvalue hrecord harg hread)
    | computed hrecord harg hread =>
      exact .of_eq (Direct.evaluate_computed hvalue hrecord harg hread)
    | rejected hrecord harg hread ht =>
      exact .of_rejects (Direct.evaluate_rejected hvalue hrecord harg hread) hrecord rfl ht
    | @halted x p e hrecord harg hread hstop =>
      obtain ⟨k, -, rfl⟩ := hstop
      -- the text that is stored by now is read back as the polynomial it was made from
      let m₁ : Memo Store :=
        ⟨s.cache.inner.putRecord raw (.simplified p.simplify.render), settings, parses⟩
      have hstored : m₁.cache.record? raw = some (.simplified p.simplify.render) := by
        simp [m₁]
      have hagain := Direct.evaluate_rebuilt (m := m₁) hvalue hstored harg (rebuilt_render hread)
      have hrequest :=
        Direct.evaluate_computed (m := ⟨_, settings, parses⟩) hvalue hrecord harg hread
      refine .stopped m₁ ?_ ?_ <;> rw [hagain, hrequest]

def Settles (raw : String) (request : Action Store α) (m : Memo Store) (out : Except Error α)
    (t : Store) : Prop :=
  out = (request m).1 ∧ (t = (request m).2.cache ∨ (∃ e, out = .error e) ∧
    ∃ f, t.record? raw = none ∧ (request m).2.cache = t.putRecord raw (.failed f))

lemma Disturbed.settles {request : Action Store α} {m : Memo Store} {out : Except Error α}
    {t : Store} (h : Disturbed raw request m out t) (hout : ∀ r, out ≠ unanswered r) :
    Settles raw request m out t := by
  cases h with
  | stopped => exact absurd rfl (hout _)
  | undisturbed => exact ⟨rfl, Or.inl rfl⟩
  | forgotten hrequest hrecord ht => exact ⟨hrequest.symm, Or.inr ⟨⟨_, rfl⟩, _, hrecord, ht⟩⟩

section Retry

variable {once : Action (Faulty Store) α} {request : Action Store α}
  (hnotes : NotesStops once) (hanswered : ∀ m r, (request m).1 ≠ unanswered r)
  (hdisturbed : ∀ {s s' : Session} {out : Except Error α}, once s = (out, s') →
    ∀ {m : Memo Store}, s.cache.inner = m.cache → Disturbed raw request m out s'.cache.inner)

include hnotes hanswered hdisturbed

lemma settles_retry (n : ℕ) : ∀ {s : Session} {m : Memo Store}, s.cache.inner = m.cache →
    stops (retry once n s).2 < stops s + (n + 1) →
    Settles raw request m (retry once n s).1 (retry once n s).2.cache.inner := by
  induction n with
  | zero =>
    intro s m hm hstops
    rcases honce : once s with ⟨out, s'⟩
    simp only [retry, honce] at hstops ⊢
    refine (hdisturbed honce hm).settles ?_
    rintro r rfl
    have hlt := (hnotes _ _ _ honce).2 r rfl
    omega
  | succ n ih =>
    intro s m hm hstops
    rcases honce : once s with ⟨out, s₁⟩
    by_cases hout : ∃ r, out = unanswered r
    · obtain ⟨r, rfl⟩ := hout
      have hretry : retry once (n + 1) s = retry once n s₁ := by
        simp only [retry, honce, unanswered]
      rw [hretry] at hstops ⊢
      have hlt := (hnotes _ _ _ honce).2 r rfl
      generalize hout : (unanswered r : Except Error α) = out at honce
      have hd := hdisturbed honce hm
      generalize hs₁ : s₁.cache.inner = t at hd
      cases hd with
      | stopped m₁ hout₁ hcache₁ =>
        have hsettles := ih (m := m₁) hs₁ (by omega)
        rwa [Settles, hout₁, hcache₁] at hsettles
      | undisturbed => exact absurd hout.symm (hanswered m r)
      | forgotten => cases hout
    · have hout : ∀ r, out ≠ unanswered r := not_exists.mp hout
      rw [retry_of_answered honce hout]
      exact (hdisturbed honce hm).settles hout

end Retry

/-- A request with `n` attempts, each of them `once`, and the same request put directly to the store
behind. -/
structure Masked (raw : String) (n : ℕ) (once request : Action (Faulty Store) α)
    (direct : Action Store α) (s : Session) : Prop where
  /-- All attempts but the last end in errors of the store. Where the last does so too, there were
  as many as there may be, and its error is the answer. -/
  attempts : ∃ reasons : List String,
    Attempts once s (reasons.map unanswered ++ [(request s).1]) (request s).2 ∧
      reasons.length < n ∧ ∀ r, (request s).1 = unanswered r → reasons.length + 1 = n
  answer : stops (request s).2 < stops s + n → (request s).1 = (direct s.direct).1
  content_of_ok : stops (request s).2 < stops s + n → ∀ a, (request s).1 = .ok a →
    (request s).2.cache.inner = (direct s.direct).2.cache
  content_of_error : stops (request s).2 < stops s + n → ∀ e, (request s).1 = .error e →
    (request s).2.cache.inner = (direct s.direct).2.cache ∨
      ∃ f, (request s).2.cache.inner.record? raw = none ∧
        (direct s.direct).2.cache = (request s).2.cache.inner.putRecord raw (.failed f)

lemma masked_retry {once : Action (Faulty Store) α} {direct : Action Store α}
    (hnotes : NotesStops once) (hanswered : ∀ m r, (direct m).1 ≠ unanswered r)
    (hdisturbed : ∀ {s s' : Session} {out : Except Error α}, once s = (out, s') →
      ∀ {m : Memo Store}, s.cache.inner = m.cache → Disturbed raw direct m out s'.cache.inner)
    (n : ℕ) (s : Session) : Masked raw (n + 1) once (retry once n) direct s := by
  obtain ⟨reasons, hattempts, hle, heq⟩ := attempts_retry once n s
  have hsettles := settles_retry hnotes hanswered hdisturbed n (s := s) (m := s.direct) rfl
  refine ⟨⟨reasons, hattempts, Nat.lt_succ_of_le hle, ?_⟩, ?_, ?_, ?_⟩
  · exact fun r hr => congrArg (· + 1) (heq r hr)
  · exact fun hstops => (hsettles hstops).1
  · intro hstops a ha
    obtain ⟨-, hcache | ⟨⟨e, he⟩, -⟩⟩ := hsettles hstops
    · exact hcache
    · rw [ha] at he
      cases he
  · intro hstops e he
    exact (hsettles hstops).2.imp_right And.right

/-- Whatever is stored and whichever calls are set to be stopped, a request that has more attempts
than calls are stopped meanwhile comes to what it comes to without faults. -/
theorem requests_masked (s : Session) (raw argument : String) :
    Masked raw (max 1 s.settings.simplifyAttempts) (simplifyOnce raw) (simplify raw)
      (simplify raw) s ∧
    Masked raw (max 1 s.settings.evaluateAttempts) (evaluateOnce raw argument)
      (evaluate raw argument) (evaluate raw argument) s := by
  have hsimplify : max 1 s.settings.simplifyAttempts = s.settings.simplifyRetries + 1 := by
    rw [Settings.simplifyRetries]
    omega
  have hevaluate : max 1 s.settings.evaluateAttempts = s.settings.evaluateRetries + 1 := by
    rw [Settings.evaluateRetries]
    omega
  rw [hsimplify, hevaluate]
  have hmasked := masked_retry (notesStops_simplifyOnce raw) (Direct.simplify_ne_unanswered raw)
    simplifyOnce_disturbed s.settings.simplifyRetries s
  have hmasked' := masked_retry (notesStops_evaluateOnce raw argument)
    (Direct.evaluate_ne_unanswered raw argument) evaluateOnce_disturbed
    s.settings.evaluateRetries s
  exact ⟨⟨hmasked.1, hmasked.2, hmasked.3, hmasked.4⟩,
    hmasked'.1, hmasked'.2, hmasked'.3, hmasked'.4⟩

end Memo

end Polycalc
