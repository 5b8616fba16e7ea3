import Polycalc.Proofs.Memo.Masking

/-! A cache whose calls are noted together with the replies. Noting them changes nothing else, and
each attempt at a request has asked, and been told that nothing is there, before it stores. -/

namespace Polycalc

inductive Event where
  | record? (raw : String) (reply : Except String (Option Record))
  | putRecord (raw : String) (record : Record) (reply : Except String Unit)
  | value? (raw argument : String) (reply : Except String (Option Int64))
  | putValue (raw argument : String) (value : Int64) (linked : Option Record)
      (reply : Except String Unit)

namespace Event

def IsPermitted (before : List Event) : Event → Prop
  | putRecord raw _ _ => record? raw (.ok none) ∈ before
  | putValue raw argument _ _ _ => value? raw argument (.ok none) ∈ before
  | _ => True

def AsksFirst : List Event → Prop
  | [] => True
  | e :: before => e.IsPermitted before ∧ AsksFirst before

end Event

structure Observed (σ : Type) where
  inner : σ
  events : List Event

namespace Observed

variable {σ α : Type}

def observe (event : Except String α → Event) (op : Query σ α) : Query (Observed σ) α := fun s =>
  let (out, inner) := op s.inner
  (out, ⟨inner, event out :: s.events⟩)

instance [Cache σ] : Cache (Observed σ) where
  record? raw := observe (.record? raw) (Cache.record? raw)
  putRecord raw record := observe (.putRecord raw record) (Cache.putRecord raw record)
  value? raw argument := observe (.value? raw argument) (Cache.value? raw argument)
  putValue raw argument value linked :=
    observe (.putValue raw argument value linked) (Cache.putValue raw argument value linked)

end Observed

namespace Memo

open Event (AsksFirst IsPermitted)
open Observed (observe)

variable {σ α β : Type}

def observed (m : Memo σ) : Memo (Observed σ) := ⟨⟨m.cache, []⟩, m.settings, m.parses⟩

def unobserved (m : Memo (Observed σ)) : Memo σ := ⟨m.cache.inner, m.settings, m.parses⟩

lemma ignore_of {act : Action σ Unit} {m m' : Memo σ} {o : Except Error Unit}
    (h : act m = (o, m')) : tryCatch act (fun _ => pure ()) m = (.ok (), m') := by
  simp only [tryCatch, tryCatchThe, MonadExceptOf.tryCatch, ExceptT.tryCatch, ExceptT.mk, bind,
    StateT.bind, h]
  cases o <;> rfl

def Since (m₀ : Memo (Observed σ)) (facts : List Event) (m : Memo (Observed σ)) : Prop :=
  ∃ made, m.cache.events = made ++ m₀.cache.events ∧ AsksFirst made ∧ facts ⊆ made

lemma Since.mono {m₀ m : Memo (Observed σ)} {F G : List Event} (h : Since m₀ F m) (hG : G ⊆ F) :
    Since m₀ G m := by
  obtain ⟨made, hmade, hasks, hfacts⟩ := h
  exact ⟨made, hmade, hasks, List.Subset.trans hG hfacts⟩

lemma Since.refl (m : Memo (Observed σ)) : Since m [] m :=
  ⟨[], rfl, trivial, List.nil_subset []⟩

/-- Where the facts `F` are known, the two actions come to the same, nothing is stored unasked, and
the facts that go with an answer are known. -/
def Mirrors (F : List Event) (act : Action (Observed σ) α) (plain : Action σ α)
    (G : α → List Event) : Prop :=
  ∀ m₀ m out m', Since m₀ F m → act m = (out, m') →
    plain m.unobserved = (out, m'.unobserved) ∧ Since m₀ [] m' ∧
      ∀ a, out = .ok a → Since m₀ (G a) m'

variable {F : List Event} {G : α → List Event}

lemma mirrors_bind {act : Action (Observed σ) α} {plain : Action σ α}
    {f : α → Action (Observed σ) β} {g : α → Action σ β} {H : β → List Event}
    (hact : Mirrors F act plain G) (hf : ∀ a, Mirrors (G a) (f a) (g a) H) :
    Mirrors F (act >>= f) (plain >>= g) H := by
  intro m₀ m out m' hm h
  obtain ⟨e, he, rfl⟩ | ⟨a, m₁, ha, h⟩ := bind_cases h
  · obtain ⟨hplain, hsince, -⟩ := hact _ _ _ _ hm he
    exact ⟨bind_of_error hplain, hsince, nofun⟩
  · -- What `act` found is among the facts `f` starts from, and `F` need not be kept besides.
    obtain ⟨hplain, -, hfacts⟩ := hact _ _ _ _ hm ha
    rw [bind_of_ok hplain]
    exact hf a _ _ _ _ (hfacts a rfl) h

lemma mirrors_pure {a : α} (hG : G a ⊆ F) :
    Mirrors F (pure a) (pure a : Action σ α) G := by
  intro m₀ m out m' hm h
  obtain ⟨rfl, rfl⟩ := pure_cases h
  refine ⟨rfl, hm.mono (List.nil_subset F), ?_⟩
  rintro b ⟨⟩
  exact hm.mono hG

lemma mirrors_throw (e : Error) : Mirrors F (throw e) (throw e : Action σ α) G := by
  intro m₀ m out m' hm h
  obtain ⟨rfl, rfl⟩ := throw_cases h
  exact ⟨rfl, hm.mono (List.nil_subset F), nofun⟩

lemma mirrors_liftM (x : Except Error α) :
    Mirrors F (liftM x) (liftM x : Action σ α) fun _ => F := by
  cases x with
  | ok a => exact mirrors_pure (List.Subset.refl F)
  | error e => exact mirrors_throw e

lemma mirrors_ignore {act : Action (Observed σ) Unit} {plain : Action σ Unit}
    {G : Unit → List Event} (h : Mirrors F act plain G) :
    Mirrors F (tryCatch act fun _ => pure ()) (tryCatch plain fun _ => pure ()) fun _ => [] := by
  intro m₀ m out m' hm hact
  obtain ⟨rfl, o, ho⟩ := ignore_cases hact
  obtain ⟨hplain, hsince, -⟩ := h _ _ _ _ hm ho
  exact ⟨ignore_of hplain, hsince, fun _ _ => hsince⟩

lemma mirrors_countParse : Mirrors F countParse (countParse : Action σ Unit) fun _ => F := by
  intro m₀ m out m' hm h
  cases h
  exact ⟨rfl, hm.mono (List.nil_subset F), fun _ _ => hm⟩

lemma mirrors_query {event : Except String α → Event} {op : Query σ α}
    (hpermitted : ∀ reply before, F ⊆ before → (event reply).IsPermitted before) :
    Mirrors F (query (observe event op)) (query op) fun a => event (.ok a) :: F := by
  rintro m₀ m out m' ⟨made, hmade, hasks, hfacts⟩ h
  rcases hop : op m.cache.inner with ⟨reply, inner⟩
  simp only [query, observe, hop] at h
  cases h
  -- The event itself is noted last, so it is judged by the facts known before it.
  have hmade' : event reply :: m.cache.events = event reply :: made ++ m₀.cache.events := by
    rw [hmade, List.cons_append]
  have hasks' : AsksFirst (event reply :: made) := ⟨hpermitted reply made hfacts, hasks⟩
  refine ⟨?_, ⟨_, hmade', hasks', List.nil_subset _⟩, ?_⟩
  · simp only [query, unobserved, hop]
  · intro a ha
    cases reply with
    | ok b =>
      cases ha
      exact ⟨_, hmade', hasks', List.cons_subset_cons _ hfacts⟩
    | error r => cases ha

section Requests

variable [Cache σ] (raw argument : String)

lemma mirrors_record? : Mirrors F (query (Cache.record? raw) : Action (Observed σ) _)
    (query (Cache.record? raw) : Action σ _) fun r => .record? raw (.ok r) :: F :=
  mirrors_query fun _ _ _ => trivial

lemma mirrors_value? : Mirrors F (query (Cache.value? raw argument) : Action (Observed σ) _)
    (query (Cache.value? raw argument) : Action σ _) fun v => .value? raw argument (.ok v) :: F :=
  mirrors_query fun _ _ _ => trivial

lemma mirrors_putRecord (record : Record) (h : .record? raw (.ok none) ∈ F) :
    Mirrors F (query (Cache.putRecord raw record) : Action (Observed σ) _)
      (query (Cache.putRecord raw record) : Action σ _)
      fun u => .putRecord raw record (.ok u) :: F :=
  mirrors_query fun _ _ hF => hF h

lemma mirrors_putValue (value : Int64) (linked : Option Record)
    (h : .value? raw argument (.ok none) ∈ F) :
    Mirrors F (query (Cache.putValue raw argument value linked) : Action (Observed σ) _)
      (query (Cache.putValue raw argument value linked) : Action σ _)
      fun u => .putValue raw argument value linked (.ok u) :: F :=
  mirrors_query fun _ _ hF => hF h

lemma mirrors_compute (h : .record? raw (.ok none) ∈ F) :
    Mirrors F (compute raw) (compute raw : Action σ _) fun _ => F := by
  refine mirrors_bind mirrors_countParse fun _ => ?_
  cases hread : Polynomial.read raw with
  | ok p => exact mirrors_pure (List.Subset.refl F)
  | error e =>
    obtain ⟨f, rfl, -⟩ := Polynomial.read_error hread
    have hput := mirrors_putRecord (σ := σ) raw (.failed f) h
    exact mirrors_bind (mirrors_ignore hput) fun _ => mirrors_throw _

omit [Cache σ] in
lemma mirrors_rebuild (text : String) :
    Mirrors F (rebuild raw text) (rebuild raw text : Action σ _) fun _ => F := by
  refine mirrors_bind mirrors_countParse fun _ => ?_
  cases Polynomial.readCanonical text with
  | ok p => exact mirrors_pure (List.Subset.refl F)
  | error e =>
    refine mirrors_bind mirrors_countParse fun _ => ?_
    cases Polynomial.read raw with
    | ok p => exact mirrors_pure (List.Subset.refl F)
    | error e => exact mirrors_throw e

lemma mirrors_simplifyOnce :
    Mirrors [] (simplifyOnce raw) (simplifyOnce raw : Action σ _) fun _ => [] := by
  refine mirrors_bind (mirrors_record? raw) fun record => ?_
  match record with
  | some (.failed f) => exact mirrors_throw _
  | some (.simplified text) => exact mirrors_pure (List.nil_subset _)
  | none =>
    refine mirrors_bind (mirrors_compute raw List.mem_cons_self) fun p => ?_
    refine mirrors_bind (mirrors_putRecord raw _ List.mem_cons_self) fun _ => ?_
    exact mirrors_pure (List.nil_subset _)

lemma mirrors_restore_some (text : String) :
    Mirrors F (restore raw (some text)) (restore raw (some text) : Action σ _) fun _ => F :=
  mirrors_bind (mirrors_rebuild raw text) fun _ => mirrors_pure (List.Subset.refl F)

lemma mirrors_restore_none (h : .record? raw (.ok none) ∈ F) :
    Mirrors F (restore raw none) (restore raw none : Action σ _) fun _ => F := by
  refine mirrors_bind (mirrors_compute raw h) fun p => ?_
  refine mirrors_bind (mirrors_putRecord raw _ h) fun _ => ?_
  exact mirrors_pure (List.subset_cons_self _ F)

lemma mirrors_evaluateOnce :
    Mirrors [] (evaluateOnce raw argument) (evaluateOnce raw argument : Action σ _)
      fun _ => [] := by
  refine mirrors_bind (mirrors_value? raw argument) fun value => ?_
  match value with
  | some v => exact mirrors_pure (List.nil_subset _)
  | none =>
    -- The record is looked up after the value, and the value must still be known to be absent.
    have hvalue : ∀ e : Event, .value? raw argument (.ok none) ∈
        [e, .value? raw argument (.ok none)] := by simp
    refine mirrors_bind (mirrors_record? raw) fun record => ?_
    match record with
    | some (.failed f) => exact mirrors_throw _
    | some (.simplified text) =>
      refine mirrors_bind (mirrors_liftM _) fun x => ?_
      refine mirrors_bind (mirrors_restore_some raw text) fun q => ?_
      refine mirrors_bind (mirrors_putValue raw argument _ _ (hvalue _)) fun _ => ?_
      exact mirrors_pure (List.nil_subset _)
    | none =>
      refine mirrors_bind (mirrors_liftM _) fun x => ?_
      refine mirrors_bind (mirrors_restore_none raw List.mem_cons_self) fun q => ?_
      refine mirrors_bind (mirrors_putValue raw argument _ _ (hvalue _)) fun _ => ?_
      exact mirrors_pure (List.nil_subset _)

end Requests

structure Noted (once request : Action (Observed σ) α) (plain : Action σ α) (m : Memo σ) :
    Prop where
  same : plain m = ((request m.observed).1, (request m.observed).2.unobserved)
  attempts : ∃ outs, Attempts once m.observed outs (request m.observed).2
  asksFirst : ∀ m₁ out m₂, once m₁ = (out, m₂) →
    ∃ made, m₂.cache.events = made ++ m₁.cache.events ∧ AsksFirst made

section Retry

variable {once : Action (Observed σ) α} {plain : Action σ α} (h : Mirrors [] once plain G)

include h

lemma Mirrors.asksFirst {m m' : Memo (Observed σ)} {out : Except Error α}
    (hact : once m = (out, m')) :
    ∃ made, m'.cache.events = made ++ m.cache.events ∧ AsksFirst made := by
  obtain ⟨-, ⟨made, hmade, hasks, -⟩, -⟩ := h m m out m' (.refl m) hact
  exact ⟨made, hmade, hasks⟩

lemma Mirrors.retry_eq (n : ℕ) (m : Memo (Observed σ)) :
    retry plain n m.unobserved = ((retry once n m).1, (retry once n m).2.unobserved) := by
  have hplain : ∀ {m out m'}, once m = (out, m') → plain m.unobserved = (out, m'.unobserved) := by
    intro m out m' hact
    exact (h m m out m' (.refl m) hact).1
  induction n generalizing m with
  | zero => exact hplain rfl
  | succ n ih =>
    rcases hact : once m with ⟨out, m₁⟩
    by_cases hout : ∃ r, out = .error (.store r)
    · obtain ⟨r, rfl⟩ := hout
      simp only [retry, hact, hplain hact, ih]
    · have hanswered : ∀ r, out ≠ .error (.store r) := not_exists.mp hout
      rw [retry_of_answered hact hanswered, retry_of_answered (hplain hact) hanswered]

lemma Mirrors.noted (n : ℕ) (m : Memo σ) : Noted once (retry once n) (retry plain n) m where
  same := h.retry_eq n m.observed
  attempts := by
    obtain ⟨reasons, hattempts, -⟩ := attempts_retry once n m.observed
    exact ⟨_, hattempts⟩
  asksFirst _ _ _ hact := h.asksFirst hact

end Retry

lemma simplify_noted [Cache σ] (raw : String) (m : Memo σ) :
    Noted (simplifyOnce raw) (simplify raw) (simplify raw) m := by
  have h := (mirrors_simplifyOnce (σ := σ) raw).noted m.settings.simplifyRetries m
  exact ⟨h.same, h.attempts, h.asksFirst⟩

lemma evaluate_noted [Cache σ] (raw argument : String) (m : Memo σ) :
    Noted (evaluateOnce raw argument) (evaluate raw argument) (evaluate raw argument) m := by
  have h := (mirrors_evaluateOnce (σ := σ) raw argument).noted m.settings.evaluateRetries m
  exact ⟨h.same, h.attempts, h.asksFirst⟩

end Memo

end Polycalc
