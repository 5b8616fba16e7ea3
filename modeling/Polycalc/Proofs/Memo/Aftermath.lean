import Polycalc.Proofs.Memo.Coherence

namespace Polycalc

def Store.Gains (t : Store) (raw : String) (r : Record) (t' : Store) : Prop :=
  t.record? raw = none ∧ t' = t.putRecord raw r

namespace Memo

variable {raw argument : String} {s s' : Session} {t t₀ t₁ : Store}

lemma simplify_ends {out : Except Error String} (h : simplify raw s = (out, s')) :
    ∃ s₁ : Session, s₁.cache.inner = s.cache.inner ∧ SimplifyEnd raw s₁ out s'.cache.inner := by
  change retry (simplifyOnce raw) _ s = (out, s') at h
  refine retry_ends (I := fun s₁ : Session => s₁.cache.inner = s.cache.inner)
    (Q := fun out (s' : Session) => ∃ s₁ : Session, s₁.cache.inner = s.cache.inner ∧
      SimplifyEnd raw s₁ out s'.cache.inner) ?_ ?_ h rfl
  · intro s₁ r s' hs₁ h
    obtain ⟨t, hend, hr⟩ := simplifyOnce_cases h
    cases hend with
    | stopped => exact hr.inner.trans hs₁
  · intro s₁ out s' hs₁ h
    obtain ⟨t, hend, hr⟩ := simplifyOnce_cases h
    exact ⟨s₁, hs₁, hr.inner ▸ hend⟩

inductive Resumed (raw argument : String) (t : Store) : Store → Prop
  | untouched : Resumed raw argument t t
  | recorded {x : Int64} {p : Polynomial} : t.record? raw = none →
      Argument.read argument = .ok x → Polynomial.read raw = .ok p →
      Resumed raw argument t (t.putRecord raw (.simplified p.simplify.render))

lemma EvaluateEnd.resumed {r : String} (hend : EvaluateEnd raw argument s (.error (.store r)) t)
    (h : Resumed raw argument t₀ s.cache.inner) : Resumed raw argument t₀ t := by
  cases hend with
  | stopped => exact h
  | badArgument _ harg => cases Argument.read_error harg
  | unreadable _ _ hread => obtain ⟨_, ⟨⟩, -⟩ := rebuilt_error hread
  | halted hrecord harg hread =>
    generalize s.cache.inner = t₁ at h hrecord ⊢
    cases h with
    | untouched => exact .recorded hrecord harg hread
    | recorded => simp at hrecord

lemma EvaluateEnd.of_argument {f : Failure}
    (hend : EvaluateEnd raw argument s (.error (.argument f)) t)
    (h : Resumed raw argument t₀ s.cache.inner) :
    t = t₀ ∧ Argument.read argument = .error (.argument f) := by
  cases hend with
  | stopped hstop => obtain ⟨_, -, ⟨⟩⟩ := hstop
  | halted _ _ _ hstop => obtain ⟨_, -, ⟨⟩⟩ := hstop
  | unreadable _ _ hread => obtain ⟨_, ⟨⟩, -⟩ := rebuilt_error hread
  | badArgument _ harg =>
    refine ⟨?_, harg⟩
    generalize s.cache.inner = t₁ at h
    cases h with
    | untouched => rfl
    | recorded _ harg' =>
      rw [harg] at harg'
      cases harg'

lemma EvaluateEnd.of_polynomial {f : Failure} {text : String}
    (hend : EvaluateEnd raw argument s (.error (.polynomial f text)) t)
    (h : Resumed raw argument t₀ s.cache.inner) : t = t₀ ∨ t₀.Gains raw (.failed f) t := by
  cases hend with
  | stopped hstop => obtain ⟨_, -, ⟨⟩⟩ := hstop
  | halted _ _ _ hstop => obtain ⟨_, -, ⟨⟩⟩ := hstop
  | badArgument _ harg => cases Argument.read_error harg
  | knownFailure hrecord =>
    generalize s.cache.inner = t₁ at h hrecord ⊢
    cases h with
    | untouched => exact Or.inl rfl
    | recorded => simp at hrecord
  | unreadable hrecord _ hread =>
    generalize s.cache.inner = t₁ at h hrecord ⊢
    cases h with
    | untouched => exact Or.inl rfl
    | recorded _ _ hp =>
      -- what an earlier attempt has stored can be taken up again
      simp only [Store.record?_putRecord, if_true, Option.some.injEq, Record.simplified.injEq]
        at hrecord
      rw [← hrecord, rebuilt_render hp] at hread
      cases hread
  | rejected hrecord _ _ ht =>
    generalize s.cache.inner = t₁ at h hrecord ht
    cases h with
    | untouched => exact ht.imp_right fun ht => ⟨hrecord, ht⟩
    | recorded => simp at hrecord

lemma evaluate_ends {out : Except Error Int64} (h : evaluate raw argument s = (out, s')) :
    ∃ s₁ : Session, Resumed raw argument s.cache.inner s₁.cache.inner ∧
      EvaluateEnd raw argument s₁ out s'.cache.inner := by
  change retry (evaluateOnce raw argument) _ s = (out, s') at h
  refine retry_ends (I := fun s₁ : Session => Resumed raw argument s.cache.inner s₁.cache.inner)
    (Q := fun out (s' : Session) => ∃ s₁ : Session,
      Resumed raw argument s.cache.inner s₁.cache.inner ∧
        EvaluateEnd raw argument s₁ out s'.cache.inner) ?_ ?_ h .untouched
  · intro s₁ r s' hs₁ h
    obtain ⟨t, hend, hr⟩ := evaluateOnce_cases h
    rw [hr.inner]
    exact hend.resumed hs₁
  · intro s₁ out s' hs₁ h
    obtain ⟨t, hend, hr⟩ := evaluateOnce_cases h
    exact ⟨s₁, hs₁, hr.inner ▸ hend⟩

section Parses

variable {σ α : Type} {m m' : Memo σ}

lemma query_parses {op : Query σ α} {out : Except Error α} (h : query op m = (out, m')) :
    m'.parses = m.parses := by
  cases h
  rfl

lemma liftM_bind_error {β : Type} {e : Error} {f : α → Action σ β} {out : Except Error β}
    (h : ((liftM (.error e : Except Error α) : Action σ α) >>= f) m = (out, m')) : m = m' := by
  obtain ⟨_, he, -⟩ | ⟨_, _, ha, -⟩ := bind_cases h
  · exact (liftM_cases he).2
  · cases (liftM_cases ha).1

lemma evaluateOnce_parses [Cache σ] {e : Error} (harg : Argument.read argument = .error e)
    {out : Except Error Int64} (h : evaluateOnce raw argument m = (out, m')) :
    m'.parses = m.parses := by
  rw [evaluateOnce, harg] at h
  obtain ⟨_, he, -⟩ | ⟨value, m₁, hvalue, h⟩ := bind_cases h
  · exact query_parses he
  rw [← query_parses hvalue]
  cases value with
  | some v => rw [(pure_cases h).2]
  | none =>
    obtain ⟨_, he, -⟩ | ⟨record, m₂, hrecord, h⟩ := bind_cases h
    · exact query_parses he
    rw [← query_parses hrecord]
    match record with
    | none => rw [liftM_bind_error h]
    | some (.simplified text) => rw [liftM_bind_error h]
    | some (.failed f) =>
      obtain ⟨_, he, -⟩ | ⟨_, _, ha, -⟩ := bind_cases h
      · rw [(throw_cases he).2]
      · cases (throw_cases ha).1

end Parses

lemma evaluate_parses {e : Error} (harg : Argument.read argument = .error e)
    {out : Except Error Int64} (h : evaluate raw argument s = (out, s')) :
    s'.parses = s.parses := by
  change retry (evaluateOnce raw argument) _ s = (out, s') at h
  refine retry_ends (I := fun s₁ => s₁.parses = s.parses)
    (Q := fun _ s' => s'.parses = s.parses) ?_ ?_ h rfl
  · intro s₁ r s' hs₁ h
    exact (evaluateOnce_parses harg h).trans hs₁
  · intro s₁ out s' hs₁ h
    exact (evaluateOnce_parses harg h).trans hs₁

/-- Whatever is stored and whichever calls are stopped: a request to simplify that ends in the error
of the store leaves the store as it was, and one to evaluate leaves there the canonical text of its
polynomial at most. A rejected polynomial leaves its rejection at most, and a rejected argument
leaves nothing. -/
theorem aftermath_of_error (s : Session) (raw argument : String) :
    let t := s.cache.inner
    (∀ r s', simplify raw s = (.error (.store r), s') → s'.cache.inner = t) ∧
    (∀ r s', evaluate raw argument s = (.error (.store r), s') → s'.cache.inner = t ∨
      ∃ text, Answer.simplified raw = .ok text ∧ t.Gains raw (.simplified text) s'.cache.inner) ∧
    (∀ f s', evaluate raw argument s = (.error (.argument f), s') →
      s'.cache.inner = t ∧ s'.parses = s.parses) ∧
    (∀ f text s', simplify raw s = (.error (.polynomial f text), s') →
      s'.cache.inner = t ∨ t.Gains raw (.failed f) s'.cache.inner) ∧
    ∀ f text s', evaluate raw argument s = (.error (.polynomial f text), s') →
      s'.cache.inner = t ∨ t.Gains raw (.failed f) s'.cache.inner := by
  refine ⟨?_, ?_, ?_, ?_, ?_⟩
  · intro r s' h
    obtain ⟨s₁, hs₁, hend⟩ := simplify_ends h
    generalize s'.cache.inner = t' at hend ⊢
    cases hend with
    | stopped => exact hs₁
  · intro r s' h
    obtain ⟨s₁, hs₁, hend⟩ := evaluate_ends h
    have hresumed := hend.resumed hs₁
    generalize s'.cache.inner = t' at hresumed ⊢
    cases hresumed with
    | untouched => exact Or.inl rfl
    | recorded hrecord _ hread =>
      exact Or.inr ⟨_, Answer.simplified_of_read hread, hrecord, rfl⟩
  · intro f s' h
    obtain ⟨s₁, hs₁, hend⟩ := evaluate_ends h
    obtain ⟨ht, harg⟩ := hend.of_argument hs₁
    exact ⟨ht, evaluate_parses harg h⟩
  · intro f text s' h
    obtain ⟨s₁, hs₁, hend⟩ := simplify_ends h
    generalize s'.cache.inner = t' at hend ⊢
    cases hend with
    | stopped hstop => obtain ⟨_, -, ⟨⟩⟩ := hstop
    | knownFailure => exact Or.inl hs₁
    | rejected hrecord _ ht =>
      rw [hs₁] at hrecord ht
      exact ht.imp_right fun ht => ⟨hrecord, ht⟩
  · intro f text s' h
    obtain ⟨s₁, hs₁, hend⟩ := evaluate_ends h
    exact hend.of_polynomial hs₁

end Memo

end Polycalc
