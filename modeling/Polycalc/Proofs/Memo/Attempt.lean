import Polycalc.Proofs.Memo.Action
import Polycalc.Proofs.Rejection

namespace Polycalc

namespace Memo

open Session (CanStop Reaches)
open Traversal

variable {raw argument text : String} {s₀ s s' : Session} {t₀ : Store}

def Rejects (raw : String) (f : Failure) (t t' : Store) : Prop :=
  t' = t ∨ t' = t.putRecord raw (.failed f)

lemma rememberFailure_cases (h₀ : Reaches s₀ t₀ s) {f : Failure} {out : Except Error Unit}
    (h : rememberFailure raw f s = (out, s')) :
    out = .ok () ∧ ∃ t, Rejects raw f t₀ t ∧ Reaches s₀ t s' := by
  obtain ⟨rfl, o, ho⟩ := ignore_cases h
  obtain ⟨_, -, -, hr⟩ | ⟨-, hr⟩ := query_cases h₀ ho rfl
  · exact ⟨rfl, t₀, Or.inl rfl, hr⟩
  · exact ⟨rfl, _, Or.inr rfl, hr⟩

lemma compute_cases (h₀ : Reaches s₀ t₀ s) {out : Except Error Polynomial}
    (h : compute raw s = (out, s')) :
    (∃ p, Polynomial.read raw = .ok p ∧ out = .ok p.simplify ∧ Reaches s₀ t₀ s') ∨
      ∃ f t, Polynomial.read raw = .error (.polynomial f raw) ∧ out = .error (.polynomial f raw) ∧
        Rejects raw f t₀ t ∧ Reaches s₀ t s' := by
  obtain ⟨s₁, h₁, h⟩ := countParse_bind_cases h₀ h
  cases hread : Polynomial.read raw with
  | ok p =>
    rw [hread] at h
    obtain ⟨rfl, rfl⟩ := pure_cases h
    exact Or.inl ⟨p, rfl, rfl, h₁⟩
  | error e =>
    obtain ⟨f, rfl, -⟩ := Polynomial.read_error hread
    rw [hread] at h
    obtain ⟨e, he, -⟩ | ⟨_, s₂, hremember, h⟩ := bind_cases h
    · cases (rememberFailure_cases h₁ he).1
    obtain ⟨-, t, ht, h₂⟩ := rememberFailure_cases h₁ hremember
    obtain ⟨rfl, rfl⟩ := throw_cases h
    exact Or.inr ⟨f, t, rfl, rfl, ht, h₂⟩

def rebuilt (raw text : String) : Except Error Polynomial :=
  match Polynomial.readCanonical text with
  | .ok p => .ok p
  | .error _ => Polynomial.simplify <$> Polynomial.read raw

lemma rebuilt_error {e : Error} (h : rebuilt raw text = .error e) :
    ∃ f, e = .polynomial f raw ∧ Polynomial.read raw = .error (.polynomial f raw) := by
  rw [rebuilt] at h
  split at h
  · cases h
  · have hread := map_eq_error_iff.mp h
    obtain ⟨f, rfl, -⟩ := Polynomial.read_error hread
    exact ⟨f, rfl, hread⟩

lemma rebuild_cases (h₀ : Reaches s₀ t₀ s) {out : Except Error Polynomial}
    (h : rebuild raw text s = (out, s')) : out = rebuilt raw text ∧ Reaches s₀ t₀ s' := by
  obtain ⟨s₁, h₁, h⟩ := countParse_bind_cases h₀ h
  rw [rebuilt]
  cases htext : Polynomial.readCanonical text with
  | ok p =>
    rw [htext] at h
    obtain ⟨rfl, rfl⟩ := pure_cases h
    exact ⟨rfl, h₁⟩
  | error e =>
    rw [htext] at h
    obtain ⟨s₂, h₂, h⟩ := countParse_bind_cases h₁ h
    cases hread : Polynomial.read raw with
    | ok p =>
      rw [hread] at h
      obtain ⟨rfl, rfl⟩ := pure_cases h
      exact ⟨rfl, h₂⟩
    | error e =>
      rw [hread] at h
      obtain ⟨rfl, rfl⟩ := throw_cases h
      exact ⟨rfl, h₂⟩

inductive SimplifyEnd (raw : String) (s : Session) : Except Error String → Store → Prop
  | stopped {e : Error} : s.CanStop e → SimplifyEnd raw s (.error e) s.cache.inner
  | known {text : String} : s.cache.inner.record? raw = some (.simplified text) →
      SimplifyEnd raw s (.ok text) s.cache.inner
  | knownFailure {f : Failure} : s.cache.inner.record? raw = some (.failed f) →
      SimplifyEnd raw s (.error (.polynomial f raw)) s.cache.inner
  | rejected {f : Failure} {t : Store} : s.cache.inner.record? raw = none →
      Polynomial.read raw = .error (.polynomial f raw) → Rejects raw f s.cache.inner t →
      SimplifyEnd raw s (.error (.polynomial f raw)) t
  | computed {p : Polynomial} : s.cache.inner.record? raw = none → Polynomial.read raw = .ok p →
      SimplifyEnd raw s (.ok p.simplify.render)
        (s.cache.inner.putRecord raw (.simplified p.simplify.render))

theorem simplifyOnce_cases {out : Except Error String} (h : simplifyOnce raw s = (out, s')) :
    ∃ t, SimplifyEnd raw s out t ∧ Reaches s t s' := by
  obtain ⟨e, rfl, hstop, hr⟩ | ⟨s₁, h₁, h⟩ := query_bind_cases (.refl s) h rfl
  · exact ⟨_, .stopped hstop, hr⟩
  cases hrecord : s.cache.inner.record? raw with
  | some record =>
    cases record with
    | simplified text =>
      rw [hrecord] at h
      obtain ⟨rfl, rfl⟩ := pure_cases h
      exact ⟨_, .known hrecord, h₁⟩
    | failed f =>
      rw [hrecord] at h
      obtain ⟨rfl, rfl⟩ := throw_cases h
      exact ⟨_, .knownFailure hrecord, h₁⟩
  | none =>
    rw [hrecord] at h
    obtain ⟨e, he, rfl⟩ | ⟨q, s₂, hq, h⟩ := bind_cases h
    · obtain ⟨_, -, ⟨⟩, -⟩ | ⟨f, t, hread, ⟨⟩, ht, hr⟩ := compute_cases h₁ he
      exact ⟨t, .rejected hrecord hread ht, hr⟩
    · obtain ⟨p, hread, ⟨⟩, h₂⟩ | ⟨_, _, -, ⟨⟩, -⟩ := compute_cases h₁ hq
      obtain ⟨e, rfl, hstop, hr⟩ | ⟨rfl, hr⟩ := query_pure_cases h₂ h rfl
      · exact ⟨_, .stopped hstop, hr⟩
      · exact ⟨_, .computed hrecord hread, hr⟩

lemma restore_some_cases (h₀ : Reaches s₀ t₀ s) {out : Except Error (Polynomial × String)}
    (h : restore raw (some text) s = (out, s')) :
    out = (·, text) <$> rebuilt raw text ∧ Reaches s₀ t₀ s' := by
  obtain ⟨e, he, rfl⟩ | ⟨p, s₁, hp, h⟩ := bind_cases h
  · obtain ⟨hout, hr⟩ := rebuild_cases h₀ he
    rw [← hout]
    exact ⟨rfl, hr⟩
  · obtain ⟨hout, hr⟩ := rebuild_cases h₀ hp
    obtain ⟨rfl, rfl⟩ := pure_cases h
    rw [← hout]
    exact ⟨rfl, hr⟩

lemma restore_none_cases (h₀ : Reaches s₀ t₀ s) {out : Except Error (Polynomial × String)}
    (h : restore raw none s = (out, s')) :
    (∃ e, out = .error e ∧ s₀.CanStop e ∧ Reaches s₀ t₀ s') ∨
    (∃ f t, out = .error (.polynomial f raw) ∧ Polynomial.read raw = .error (.polynomial f raw) ∧
      Rejects raw f t₀ t ∧ Reaches s₀ t s') ∨
    ∃ p, out = .ok (p.simplify, p.simplify.render) ∧ Polynomial.read raw = .ok p ∧
      Reaches s₀ (t₀.putRecord raw (.simplified p.simplify.render)) s' := by
  obtain ⟨e, he, rfl⟩ | ⟨q, s₁, hq, h⟩ := bind_cases h
  · obtain ⟨_, -, ⟨⟩, -⟩ | ⟨f, t, hread, ⟨⟩, ht, hr⟩ := compute_cases h₀ he
    exact Or.inr (Or.inl ⟨f, t, rfl, hread, ht, hr⟩)
  · obtain ⟨p, hread, ⟨⟩, h₁⟩ | ⟨_, _, -, ⟨⟩, -⟩ := compute_cases h₀ hq
    obtain hstop | ⟨rfl, hr⟩ := query_pure_cases h₁ h rfl
    · exact Or.inl hstop
    · exact Or.inr (Or.inr ⟨p, rfl, hread, hr⟩)

inductive EvaluateEnd (raw argument : String) (s : Session) : Except Error Int64 → Store → Prop
  | stopped {e : Error} : s.CanStop e → EvaluateEnd raw argument s (.error e) s.cache.inner
  | known {v : Int64} : s.cache.inner.value? raw argument = some v →
      EvaluateEnd raw argument s (.ok v) s.cache.inner
  | knownFailure {f : Failure} : s.cache.inner.record? raw = some (.failed f) →
      EvaluateEnd raw argument s (.error (.polynomial f raw)) s.cache.inner
  | badArgument {e : Error} : (∀ f, s.cache.inner.record? raw ≠ some (.failed f)) →
      Argument.read argument = .error e → EvaluateEnd raw argument s (.error e) s.cache.inner
  | unreadable {text : String} {x : Int64} {e : Error} :
      s.cache.inner.record? raw = some (.simplified text) → Argument.read argument = .ok x →
      rebuilt raw text = .error e → EvaluateEnd raw argument s (.error e) s.cache.inner
  | rebuilt {text : String} {x : Int64} {p : Polynomial} :
      s.cache.inner.record? raw = some (.simplified text) → Argument.read argument = .ok x →
      rebuilt raw text = .ok p → EvaluateEnd raw argument s (.ok (p.evaluate x))
        (s.cache.inner.putValue raw argument (p.evaluate x) (some (.simplified text)))
  | rejected {x : Int64} {f : Failure} {t : Store} : s.cache.inner.record? raw = none →
      Argument.read argument = .ok x → Polynomial.read raw = .error (.polynomial f raw) →
      Rejects raw f s.cache.inner t → EvaluateEnd raw argument s (.error (.polynomial f raw)) t
  | halted {x : Int64} {p : Polynomial} {e : Error} : s.cache.inner.record? raw = none →
      Argument.read argument = .ok x → Polynomial.read raw = .ok p → s.CanStop e →
      EvaluateEnd raw argument s (.error e)
        (s.cache.inner.putRecord raw (.simplified p.simplify.render))
  | computed {x : Int64} {p : Polynomial} : s.cache.inner.record? raw = none →
      Argument.read argument = .ok x → Polynomial.read raw = .ok p →
      EvaluateEnd raw argument s (.ok (p.simplify.evaluate x))
        ((s.cache.inner.putRecord raw (.simplified p.simplify.render)).putValue raw argument
          (p.simplify.evaluate x) (some (.simplified p.simplify.render)))

def evaluateStored (raw argument : String) (stored : Option String) :
    Action (Faulty Store) Int64 := do
  let x ← Argument.read argument
  let (p, text) ← restore raw stored
  query (Cache.putValue raw argument (p.evaluate x) (some (.simplified text)))
  return p.evaluate x

lemma evaluateStored_some_cases (h₀ : Reaches s₀ s₀.cache.inner s)
    (hrecord : s₀.cache.inner.record? raw = some (.simplified text)) {out : Except Error Int64}
    (h : evaluateStored raw argument (some text) s = (out, s')) :
    ∃ t, EvaluateEnd raw argument s₀ out t ∧ Reaches s₀ t s' := by
  have hfailed : ∀ f, s₀.cache.inner.record? raw ≠ some (.failed f) := by simp [hrecord]
  obtain ⟨e, he, rfl⟩ | ⟨x, s₁, hx, h⟩ := bind_cases h
  · obtain ⟨harg, rfl⟩ := liftM_cases he
    exact ⟨_, .badArgument hfailed harg.symm, h₀⟩
  obtain ⟨harg, rfl⟩ := liftM_cases hx
  obtain ⟨e, he, rfl⟩ | ⟨⟨q, u⟩, s₂, hq, h⟩ := bind_cases h
  · obtain ⟨hout, hr⟩ := restore_some_cases h₀ he
    exact ⟨_, .unreadable hrecord harg.symm (map_eq_error_iff.mp hout.symm), hr⟩
  obtain ⟨hout, h₁⟩ := restore_some_cases h₀ hq
  obtain ⟨p, hp, ⟨⟩⟩ := map_eq_ok_iff.mp hout.symm
  obtain ⟨e, rfl, hstop, hr⟩ | ⟨rfl, hr⟩ := query_pure_cases h₁ h rfl
  · exact ⟨_, .stopped hstop, hr⟩
  · exact ⟨_, .rebuilt hrecord harg.symm hp, hr⟩

lemma evaluateStored_none_cases (h₀ : Reaches s₀ s₀.cache.inner s)
    (hrecord : s₀.cache.inner.record? raw = none) {out : Except Error Int64}
    (h : evaluateStored raw argument none s = (out, s')) :
    ∃ t, EvaluateEnd raw argument s₀ out t ∧ Reaches s₀ t s' := by
  have hfailed : ∀ f, s₀.cache.inner.record? raw ≠ some (.failed f) := by simp [hrecord]
  obtain ⟨e, he, rfl⟩ | ⟨x, s₁, hx, h⟩ := bind_cases h
  · obtain ⟨harg, rfl⟩ := liftM_cases he
    exact ⟨_, .badArgument hfailed harg.symm, h₀⟩
  obtain ⟨harg, rfl⟩ := liftM_cases hx
  obtain ⟨e, he, rfl⟩ | ⟨⟨q, u⟩, s₂, hq, h⟩ := bind_cases h
  · obtain ⟨_, ⟨⟩, hstop, hr⟩ | ⟨f, t, ⟨⟩, hread, ht, hr⟩ | ⟨_, ⟨⟩, -⟩ := restore_none_cases h₀ he
    · exact ⟨_, .stopped hstop, hr⟩
    · exact ⟨t, .rejected hrecord harg.symm hread ht, hr⟩
  obtain ⟨_, ⟨⟩, -⟩ | ⟨_, _, ⟨⟩, -⟩ | ⟨p, ⟨⟩, hread, h₁⟩ := restore_none_cases h₀ hq
  obtain ⟨e, rfl, hstop, hr⟩ | ⟨rfl, hr⟩ := query_pure_cases h₁ h rfl
  · exact ⟨_, .halted hrecord harg.symm hread hstop, hr⟩
  · exact ⟨_, .computed hrecord harg.symm hread, hr⟩

theorem evaluateOnce_cases {out : Except Error Int64}
    (h : evaluateOnce raw argument s = (out, s')) :
    ∃ t, EvaluateEnd raw argument s out t ∧ Reaches s t s' := by
  obtain ⟨e, rfl, hstop, hr⟩ | ⟨s₁, h₁, h⟩ := query_bind_cases (.refl s) h rfl
  · exact ⟨_, .stopped hstop, hr⟩
  cases hvalue : s.cache.inner.value? raw argument with
  | some v =>
    rw [hvalue] at h
    obtain ⟨rfl, rfl⟩ := pure_cases h
    exact ⟨_, .known hvalue, h₁⟩
  | none =>
    rw [hvalue] at h
    obtain ⟨e, rfl, hstop, hr⟩ | ⟨s₂, h₂, h⟩ := query_bind_cases h₁ h rfl
    · exact ⟨_, .stopped hstop, hr⟩
    cases hrecord : s.cache.inner.record? raw with
    | none =>
      rw [hrecord] at h
      exact evaluateStored_none_cases h₂ hrecord h
    | some record =>
      cases record with
      | failed f =>
        rw [hrecord] at h
        obtain ⟨e, he, rfl⟩ | ⟨_, _, he, -⟩ := bind_cases h
        · obtain ⟨⟨⟩, rfl⟩ := throw_cases he
          exact ⟨_, .knownFailure hrecord, h₂⟩
        · cases (throw_cases he).1
      | simplified text =>
        rw [hrecord] at h
        exact evaluateStored_some_cases h₂ hrecord h

lemma evaluateOnce_of_value {v : Int64} (hvalue : s.cache.inner.value? raw argument = some v)
    {out : Except Error Int64} (h : evaluateOnce raw argument s = (out, s')) :
    ((∃ e, out = .error e ∧ s.CanStop e) ∨ out = .ok v) ∧ Reaches s s.cache.inner s' := by
  obtain ⟨e, rfl, hstop, hr⟩ | ⟨s₁, h₁, h⟩ := query_bind_cases (.refl s) h rfl
  · exact ⟨Or.inl ⟨e, rfl, hstop⟩, hr⟩
  · rw [hvalue] at h
    obtain ⟨rfl, rfl⟩ := pure_cases h
    exact ⟨Or.inr rfl, h₁⟩

end Memo

end Polycalc
