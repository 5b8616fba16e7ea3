import Polycalc.Proofs.Memo.Attempt

namespace Polycalc

def Session.stops (s : Session) : ℕ := s.cache.calls.countP (·.stopped)

namespace Memo

variable {α β : Type}

def NotesStops (act : Action (Faulty Store) α) : Prop :=
  ∀ (s : Session) (out : Except Error α) (s' : Session), act s = (out, s') →
    s.stops ≤ s'.stops ∧ ∀ r, out = .error (.store r) → s.stops < s'.stops

lemma notesStops_bind {act : Action (Faulty Store) α} {f : α → Action (Faulty Store) β}
    (hact : NotesStops act) (hf : ∀ a, NotesStops (f a)) : NotesStops (act >>= f) := by
  intro s out s' h
  obtain ⟨e, he, rfl⟩ | ⟨a, s₁, ha, h⟩ := bind_cases h
  · obtain ⟨hle, hlt⟩ := hact _ _ _ he
    refine ⟨hle, ?_⟩
    rintro r ⟨⟩
    exact hlt r rfl
  · obtain ⟨hle, hlt⟩ := hf a _ _ _ h
    exact ⟨(hact _ _ _ ha).1.trans hle, fun r hr => (hact _ _ _ ha).1.trans_lt (hlt r hr)⟩

lemma notesStops_pure (a : α) : NotesStops (pure a) := by
  intro s out s' h
  obtain ⟨rfl, rfl⟩ := pure_cases h
  exact ⟨le_rfl, nofun⟩

lemma notesStops_throw {e : Error} (he : ∀ r, e ≠ .store r) :
    NotesStops (throw e : Action (Faulty Store) α) := by
  intro s out s' h
  obtain ⟨rfl, rfl⟩ := throw_cases h
  refine ⟨le_rfl, ?_⟩
  rintro r ⟨⟩
  exact absurd rfl (he r)

lemma notesStops_liftM {x : Except Error α} (hx : ∀ r, x ≠ .error (.store r)) :
    NotesStops (liftM x : Action (Faulty Store) α) := by
  intro s out s' h
  obtain ⟨rfl, rfl⟩ := liftM_cases h
  exact ⟨le_rfl, fun r hr => absurd hr (hx r)⟩

lemma notesStops_ignore {act : Action (Faulty Store) Unit} (hact : NotesStops act) :
    NotesStops (tryCatch act fun _ => pure ()) := by
  intro s out s' h
  obtain ⟨rfl, o, ho⟩ := ignore_cases h
  exact ⟨(hact _ _ _ ho).1, nofun⟩

lemma notesStops_countParse : NotesStops countParse := by
  intro s out s' h
  cases h
  exact ⟨le_rfl, nofun⟩

lemma notesStops_query {k : Method} {op : Query Store α} (hop : ∀ t, ∃ a, (op t).1 = .ok a) :
    NotesStops (query (Faulty.call k op)) := by
  intro s out s' h
  rw [query, Faulty.call] at h
  by_cases hstop : (s.cache.faults.get k).Stops
  · simp only [if_pos hstop] at h
    cases h
    simp [Session.stops]
  · simp only [if_neg hstop] at h
    obtain ⟨a, ha⟩ := hop s.cache.inner
    cases h
    simp [Session.stops, ha, Except.mapError]

variable (raw argument : String)

lemma notesStops_rememberFailure (f : Failure) :
    NotesStops (rememberFailure raw f : Action (Faulty Store) Unit) :=
  notesStops_ignore (notesStops_query fun _ => ⟨_, rfl⟩)

lemma notesStops_compute : NotesStops (compute raw : Action (Faulty Store) Polynomial) := by
  refine notesStops_bind notesStops_countParse fun _ => ?_
  cases hread : Polynomial.read raw with
  | ok p => exact notesStops_pure _
  | error e =>
    obtain ⟨f, rfl, -⟩ := Polynomial.read_error hread
    exact notesStops_bind (notesStops_rememberFailure raw f) fun _ => notesStops_throw nofun

lemma notesStops_rebuild (text : String) :
    NotesStops (rebuild raw text : Action (Faulty Store) Polynomial) := by
  refine notesStops_bind notesStops_countParse fun _ => ?_
  cases Polynomial.readCanonical text with
  | ok p => exact notesStops_pure _
  | error e =>
    refine notesStops_bind notesStops_countParse fun _ => ?_
    cases hread : Polynomial.read raw with
    | ok p => exact notesStops_pure _
    | error e =>
      obtain ⟨f, rfl, -⟩ := Polynomial.read_error hread
      exact notesStops_throw nofun

lemma notesStops_simplifyOnce : NotesStops (simplifyOnce raw : Action (Faulty Store) String) := by
  refine notesStops_bind (notesStops_query fun _ => ⟨_, rfl⟩) fun record => ?_
  match record with
  | some (.failed f) => exact notesStops_throw nofun
  | some (.simplified text) => exact notesStops_pure _
  | none =>
    exact notesStops_bind (notesStops_compute raw) fun _ =>
      notesStops_bind (notesStops_query fun _ => ⟨_, rfl⟩) fun _ => notesStops_pure _

lemma notesStops_restore (stored : Option String) :
    NotesStops (restore raw stored : Action (Faulty Store) (Polynomial × String)) := by
  cases stored with
  | some text => exact notesStops_bind (notesStops_rebuild raw text) fun _ => notesStops_pure _
  | none =>
    exact notesStops_bind (notesStops_compute raw) fun _ =>
      notesStops_bind (notesStops_query fun _ => ⟨_, rfl⟩) fun _ => notesStops_pure _

lemma notesStops_evaluateStored (stored : Option String) :
    NotesStops (evaluateStored raw argument stored) := by
  have harg : ∀ r, Argument.read argument ≠ .error (.store r) := by
    intro r hr
    cases Argument.read_error hr
  refine notesStops_bind (notesStops_liftM harg) fun x => ?_
  refine notesStops_bind (notesStops_restore raw stored) fun p => ?_
  exact notesStops_bind (notesStops_query fun _ => ⟨_, rfl⟩) fun _ => notesStops_pure _

lemma notesStops_evaluateOnce :
    NotesStops (evaluateOnce raw argument : Action (Faulty Store) Int64) := by
  refine notesStops_bind (notesStops_query fun _ => ⟨_, rfl⟩) fun value => ?_
  match value with
  | some v => exact notesStops_pure _
  | none =>
    refine notesStops_bind (notesStops_query fun _ => ⟨_, rfl⟩) fun record => ?_
    match record with
    | some (.failed f) =>
      exact notesStops_bind (notesStops_throw nofun) fun _ =>
        notesStops_evaluateStored raw argument none
    | some (.simplified text) => exact notesStops_evaluateStored raw argument (some text)
    | none => exact notesStops_evaluateStored raw argument none

end Memo

end Polycalc
