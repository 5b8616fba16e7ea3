import Polycalc.Proofs.Memo.Transparency

namespace Polycalc.Memo

section Steps

variable {σ α β : Type} {m m' : Memo σ}

lemma bind_of_ok {act : Action σ α} {f : α → Action σ β} {a : α} (h : act m = (.ok a, m')) :
    (act >>= f) m = f a m' := by
  change ExceptT.bindCont f (act m).1 (act m).2 = f a m'
  rw [h]
  rfl

lemma bind_of_error {act : Action σ α} {f : α → Action σ β} {e : Error}
    (h : act m = (.error e, m')) : (act >>= f) m = (.error e, m') := by
  change ExceptT.bindCont f (act m).1 (act m).2 = (.error e, m')
  rw [h]
  rfl

lemma countParse_bind (f : Unit → Action σ β) (m : Memo σ) :
    (countParse >>= f) m = f () { m with parses := m.parses + 1 } := rfl

lemma liftM_ok_bind (a : α) (f : α → Action σ β) (m : Memo σ) :
    ((liftM (Except.ok a : Except Error α) : Action σ α) >>= f) m = f a m := rfl

lemma retry_of_answered {act : Action σ α} {out : Except Error α} (h : act m = (out, m'))
    (hout : ∀ r, out ≠ .error (.store r)) (n : ℕ) : retry act n m = (out, m') := by
  cases n with
  | zero => exact h
  | succ n =>
    simp only [retry]
    split
    · next r m₁ hstopped =>
      rw [h] at hstopped
      cases hstopped
      exact absurd rfl (hout r)
    · exact h

def rebuildParses (text : String) : ℕ :=
  match Polynomial.readCanonical text with
  | .ok _ => 1
  | .error _ => 2

lemma rebuild_eq (raw text : String) (m : Memo σ) : rebuild raw text m =
    (rebuilt raw text, { m with parses := m.parses + rebuildParses text }) := by
  rw [rebuild, countParse_bind, rebuilt, rebuildParses]
  cases Polynomial.readCanonical text with
  | ok p => rfl
  | error e =>
    dsimp only
    rw [countParse_bind]
    cases Polynomial.read raw <;> rfl

lemma rebuildParses_render (p : Polynomial) :
    rebuildParses p.render = if ∀ t ∈ p.terms, t.IsShort then 1 else 2 := by
  rw [rebuildParses, Polynomial.readCanonical_render_eq]
  cases hlong : p.terms.find? (¬ ·.IsShort) with
  | none => simpa using hlong
  | some t =>
    have hmem := List.mem_of_find?_eq_some hlong
    have ht := List.find?_some hlong
    rw [if_neg]
    intro hshort
    simp [hshort t hmem] at ht

lemma compute_of_ok [Cache σ] {raw : String} {p : Polynomial} (h : Polynomial.read raw = .ok p) :
    compute raw m = (.ok p.simplify, { m with parses := m.parses + 1 }) := by
  rw [compute, countParse_bind, h]
  rfl

end Steps

namespace Direct

variable {raw argument text : String} {m : Memo Store}

lemma query_record? {r : Option Record} (h : m.cache.record? raw = r) :
    query (Cache.record? raw) m = (.ok r, m) := by
  subst h
  rfl

lemma query_value? {v : Option Int64} (h : m.cache.value? raw argument = v) :
    query (Cache.value? raw argument) m = (.ok v, m) := by
  subst h
  rfl

lemma compute_of_error {f : Failure} (h : Polynomial.read raw = .error (.polynomial f raw)) :
    compute raw m = (.error (.polynomial f raw),
      { m with cache := m.cache.putRecord raw (.failed f), parses := m.parses + 1 }) := by
  rw [compute, countParse_bind, h]
  rfl

lemma simplify_of_once {out : Except Error String} {m' : Memo Store}
    (h : simplifyOnce raw m = (out, m')) (hout : ∀ r, out ≠ .error (.store r)) :
    simplify raw m = (out, m') := retry_of_answered h hout _

lemma evaluate_of_once {out : Except Error Int64} {m' : Memo Store}
    (h : evaluateOnce raw argument m = (out, m')) (hout : ∀ r, out ≠ .error (.store r)) :
    evaluate raw argument m = (out, m') := retry_of_answered h hout _

lemma simplify_known (h : m.cache.record? raw = some (.simplified text)) :
    simplify raw m = (.ok text, m) :=
  simplify_of_once (bind_of_ok (query_record? h)) nofun

lemma simplify_knownFailure {f : Failure} (h : m.cache.record? raw = some (.failed f)) :
    simplify raw m = (.error (.polynomial f raw), m) :=
  simplify_of_once (bind_of_ok (query_record? h)) nofun

lemma simplify_computed {p : Polynomial} (h : m.cache.record? raw = none)
    (hread : Polynomial.read raw = .ok p) :
    simplify raw m = (.ok p.simplify.render, { m with
      cache := m.cache.putRecord raw (.simplified p.simplify.render)
      parses := m.parses + 1 }) := by
  refine simplify_of_once ?_ nofun
  rw [simplifyOnce, bind_of_ok (query_record? h)]
  exact bind_of_ok (compute_of_ok hread)

lemma simplify_rejected {f : Failure} (h : m.cache.record? raw = none)
    (hread : Polynomial.read raw = .error (.polynomial f raw)) :
    simplify raw m = (.error (.polynomial f raw), { m with
      cache := m.cache.putRecord raw (.failed f)
      parses := m.parses + 1 }) := by
  refine simplify_of_once ?_ nofun
  rw [simplifyOnce, bind_of_ok (query_record? h)]
  exact bind_of_error (compute_of_error hread)

lemma evaluate_known {v : Int64} (h : m.cache.value? raw argument = some v) :
    evaluate raw argument m = (.ok v, m) :=
  evaluate_of_once (bind_of_ok (query_value? h)) nofun

section Absent

variable (hvalue : m.cache.value? raw argument = none)

include hvalue

lemma evaluate_knownFailure {f : Failure} (h : m.cache.record? raw = some (.failed f)) :
    evaluate raw argument m = (.error (.polynomial f raw), m) := by
  refine evaluate_of_once ?_ nofun
  rw [evaluateOnce, bind_of_ok (query_value? hvalue)]
  exact bind_of_ok (query_record? h)

lemma evaluate_badArgument {e : Error} (h : ∀ f, m.cache.record? raw ≠ some (.failed f))
    (harg : Argument.read argument = .error e) :
    evaluate raw argument m = (.error e, m) := by
  refine evaluate_of_once ?_ ?_
  · simp only [evaluateOnce, bind_of_ok (query_value? hvalue), bind_of_ok (query_record? rfl), harg]
    rfl
  · rintro r ⟨⟩
    cases Argument.read_error harg

lemma evaluate_rebuilt {x : Int64} {p : Polynomial}
    (h : m.cache.record? raw = some (.simplified text)) (harg : Argument.read argument = .ok x)
    (hread : rebuilt raw text = .ok p) :
    evaluate raw argument m = (.ok (p.evaluate x), { m with
      cache := m.cache.putValue raw argument (p.evaluate x) (some (.simplified text))
      parses := m.parses + rebuildParses text }) := by
  have hrebuild := rebuild_eq raw text m
  rw [hread] at hrebuild
  have hrestore : restore raw (some text) m = (.ok (p, text), _) := bind_of_ok hrebuild
  refine evaluate_of_once ?_ nofun
  simp only [evaluateOnce, bind_of_ok (query_value? hvalue), bind_of_ok (query_record? h), harg,
    liftM_ok_bind]
  exact bind_of_ok hrestore

lemma evaluate_unreadable {x : Int64} {e : Error}
    (h : m.cache.record? raw = some (.simplified text)) (harg : Argument.read argument = .ok x)
    (hread : rebuilt raw text = .error e) :
    evaluate raw argument m =
      (.error e, { m with parses := m.parses + rebuildParses text }) := by
  have hrebuild := rebuild_eq raw text m
  rw [hread] at hrebuild
  have hrestore : restore raw (some text) m = (.error e, _) := bind_of_error hrebuild
  refine evaluate_of_once ?_ ?_
  · simp only [evaluateOnce, bind_of_ok (query_value? hvalue), bind_of_ok (query_record? h), harg,
      liftM_ok_bind]
    exact bind_of_error hrestore
  · rintro r ⟨⟩
    obtain ⟨_, ⟨⟩, -⟩ := rebuilt_error hread

lemma evaluate_computed {x : Int64} {p : Polynomial} (h : m.cache.record? raw = none)
    (harg : Argument.read argument = .ok x) (hread : Polynomial.read raw = .ok p) :
    evaluate raw argument m = (.ok (p.simplify.evaluate x), { m with
      cache := (m.cache.putRecord raw (.simplified p.simplify.render)).putValue raw argument
        (p.simplify.evaluate x) (some (.simplified p.simplify.render))
      parses := m.parses + 1 }) := by
  have hrestore : restore raw none m = (.ok (p.simplify, p.simplify.render), _) :=
    bind_of_ok (compute_of_ok hread)
  refine evaluate_of_once ?_ nofun
  simp only [evaluateOnce, bind_of_ok (query_value? hvalue), bind_of_ok (query_record? h), harg,
    liftM_ok_bind]
  exact bind_of_ok hrestore

lemma evaluate_rejected {x : Int64} {f : Failure} (h : m.cache.record? raw = none)
    (harg : Argument.read argument = .ok x)
    (hread : Polynomial.read raw = .error (.polynomial f raw)) :
    evaluate raw argument m = (.error (.polynomial f raw), { m with
      cache := m.cache.putRecord raw (.failed f)
      parses := m.parses + 1 }) := by
  have hrestore : restore raw none m = (.error (.polynomial f raw), _) :=
    bind_of_error (compute_of_error hread)
  refine evaluate_of_once ?_ nofun
  simp only [evaluateOnce, bind_of_ok (query_value? hvalue), bind_of_ok (query_record? h), harg,
    liftM_ok_bind]
  exact bind_of_error hrestore

end Absent

def session (m : Memo Store) : Session := ⟨⟨m.cache, .none, []⟩, m.settings, m.parses⟩

lemma not_canStop_session (m : Memo Store) (e : Error) : ¬ (session m).CanStop e := by
  rintro ⟨k, hk, -⟩
  cases k <;> exact absurd hk (Nat.lt_irrefl 0)

lemma not_stopsWith_session {α : Type} (m : Memo Store) (out : Except Error α) :
    ¬ (session m).StopsWith out := by
  rintro ⟨e, -, hstop⟩
  exact not_canStop_session m e hstop

lemma simplifyEnd (raw : String) (m : Memo Store) :
    SimplifyEnd raw (session m) (simplify raw m).1 (simplify raw m).2.cache := by
  cases hrecord : m.cache.record? raw with
  | some r =>
    cases r with
    | simplified text =>
      rw [simplify_known hrecord]
      exact .known hrecord
    | failed f =>
      rw [simplify_knownFailure hrecord]
      exact .knownFailure hrecord
  | none =>
    cases hread : Polynomial.read raw with
    | ok p =>
      rw [simplify_computed hrecord hread]
      exact .computed hrecord hread
    | error e =>
      obtain ⟨f, rfl, -⟩ := Polynomial.read_error hread
      rw [simplify_rejected hrecord hread]
      exact .rejected hrecord hread (Or.inr rfl)

lemma evaluateEnd (raw argument : String) (m : Memo Store) :
    EvaluateEnd raw argument (session m) (evaluate raw argument m).1
      (evaluate raw argument m).2.cache := by
  cases hvalue : m.cache.value? raw argument with
  | some v =>
    rw [evaluate_known hvalue]
    exact .known hvalue
  | none =>
    by_cases hfailed : ∃ f, m.cache.record? raw = some (.failed f)
    · obtain ⟨f, hrecord⟩ := hfailed
      rw [evaluate_knownFailure hvalue hrecord]
      exact .knownFailure hrecord
    have hfailed : ∀ f, m.cache.record? raw ≠ some (.failed f) := not_exists.mp hfailed
    cases harg : Argument.read argument with
    | error e =>
      rw [evaluate_badArgument hvalue hfailed harg]
      exact .badArgument hfailed harg
    | ok x =>
      cases hrecord : m.cache.record? raw with
      | none =>
        cases hread : Polynomial.read raw with
        | ok p =>
          rw [evaluate_computed hvalue hrecord harg hread]
          exact .computed hrecord harg hread
        | error e =>
          obtain ⟨f, rfl, -⟩ := Polynomial.read_error hread
          rw [evaluate_rejected hvalue hrecord harg hread]
          exact .rejected hrecord harg hread (Or.inr rfl)
      | some r =>
        cases r with
        | failed f => exact absurd hrecord (hfailed f)
        | simplified text =>
          cases hread : rebuilt raw text with
          | ok p =>
            rw [evaluate_rebuilt hvalue hrecord harg hread]
            exact .rebuilt hrecord harg hread
          | error e =>
            rw [evaluate_unreadable hvalue hrecord harg hread]
            exact .unreadable hrecord harg hread

lemma simplify_ne_unanswered (raw : String) (m : Memo Store) (r : String) :
    (simplify raw m).1 ≠ .error (.store r) := by
  intro h
  have hend := simplifyEnd raw m
  generalize (simplify raw m).2.cache = t at hend
  rw [h] at hend
  cases hend with
  | stopped hstop => exact not_canStop_session m _ hstop

lemma evaluate_ne_unanswered (raw argument : String) (m : Memo Store) (r : String) :
    (evaluate raw argument m).1 ≠ .error (.store r) := by
  intro h
  have hend := evaluateEnd raw argument m
  generalize (evaluate raw argument m).2.cache = t at hend
  rw [h] at hend
  cases hend with
  | stopped hstop => exact not_canStop_session m _ hstop
  | halted _ _ _ hstop => exact not_canStop_session m _ hstop
  | badArgument _ harg => cases Argument.read_error harg
  | unreadable _ _ hread => obtain ⟨_, ⟨⟩, -⟩ := rebuilt_error hread

variable (hm : m.cache.Coherent)

include hm

theorem simplify_sound (raw : String) :
    (simplify raw m).2.cache.Coherent ∧ (simplify raw m).1 = Answer.simplified raw := by
  have hend := simplifyEnd raw m
  exact ⟨hend.coherent hm, (hend.answer hm).resolve_left (not_stopsWith_session m _)⟩

theorem evaluate_coherent (raw argument : String) :
    (evaluate raw argument m).2.cache.Coherent := (evaluateEnd raw argument m).coherent hm

theorem evaluate_answer (raw : String) {x : Int64} (hx : Argument.read argument = .ok x) :
    (evaluate raw argument m).1 = (·.evaluate x) <$> Polynomial.read raw :=
  ((evaluateEnd raw argument m).answer hm hx).resolve_left (not_stopsWith_session m _)

theorem evaluate_answer_of_error (raw : String) {e : Error}
    (he : Argument.read argument = .error e) :
    (evaluate raw argument m).1 = .error (refusal m.cache raw e) :=
  ((evaluateEnd raw argument m).answer_of_error hm he).2.resolve_left (not_stopsWith_session m _)

end Direct

end Polycalc.Memo
