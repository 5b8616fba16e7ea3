import Mathlib.Tactic.Common
import Polycalc.Session

namespace Polycalc

namespace Session

/-- The error of a store that does not respond, by a fault that may still stop a call. -/
def CanStop (s : Session) (e : Error) : Prop :=
  ∃ k, 0 < (s.cache.faults.get k).times ∧ e = .store (Faulty.reason k)

def StopsWith {α : Type} (s : Session) (out : Except Error α) : Prop :=
  ∃ e, out = .error e ∧ s.CanStop e

structure Reaches (s : Session) (t : Store) (s' : Session) : Prop where
  inner : s'.cache.inner = t
  canStop : ∀ e, s'.CanStop e → s.CanStop e

namespace Reaches

lemma refl (s : Session) : Reaches s s.cache.inner s := ⟨rfl, fun _ h => h⟩

lemma trans {s s₁ s' : Session} {t t' : Store} (h : Reaches s t s₁) (h' : Reaches s₁ t' s') :
    Reaches s t' s' := ⟨h'.inner, fun e he => h.canStop e (h'.canStop e he)⟩

end Reaches

end Session

lemma Fault.times_rest_le (f : Fault) : f.rest.times ≤ f.times := by
  rw [rest]
  split_ifs
  · exact Nat.le_refl _
  · exact Nat.sub_le _ _

lemma Faults.times_get_set_rest_le (fs : Faults) (k m : Method) :
    ((fs.set (fs.get k).rest k).get m).times ≤ (fs.get m).times := by
  rw [get_set]
  split_ifs with h
  · subst h
    exact Fault.times_rest_le _
  · exact Nat.le_refl _

namespace Memo

open Session (CanStop Reaches StopsWith)

section Monad

variable {σ α β : Type} {m m' : Memo σ}

lemma bind_cases {act : Action σ α} {f : α → Action σ β} {out : Except Error β}
    (h : (act >>= f) m = (out, m')) :
    (∃ e, act m = (.error e, m') ∧ out = .error e) ∨
      ∃ a m₁, act m = (.ok a, m₁) ∧ f a m₁ = (out, m') := by
  change ExceptT.bindCont f (act m).1 (act m).2 = (out, m') at h
  rcases hact : act m with ⟨e | a, m₁⟩
  · rw [hact] at h
    cases h
    exact Or.inl ⟨e, rfl, rfl⟩
  · rw [hact] at h
    exact Or.inr ⟨a, m₁, rfl, h⟩

lemma pure_cases {a : α} {out : Except Error α} (h : (pure a : Action σ α) m = (out, m')) :
    out = .ok a ∧ m = m' := by
  cases h
  exact ⟨rfl, rfl⟩

lemma throw_cases {e : Error} {out : Except Error α}
    (h : (throw e : Action σ α) m = (out, m')) : out = .error e ∧ m = m' := by
  cases h
  exact ⟨rfl, rfl⟩

lemma liftM_cases {x : Except Error α} {out : Except Error α}
    (h : (liftM x : Action σ α) m = (out, m')) : out = x ∧ m = m' := by
  cases x <;> cases h <;> exact ⟨rfl, rfl⟩

lemma ignore_cases {act : Action σ Unit} {out : Except Error Unit}
    (h : tryCatch act (fun _ => pure ()) m = (out, m')) : out = .ok () ∧ ∃ o, act m = (o, m') := by
  simp only [tryCatch, tryCatchThe, MonadExceptOf.tryCatch, ExceptT.tryCatch, ExceptT.mk, bind,
    StateT.bind] at h
  rcases hact : act m with ⟨e | u, m₁⟩ <;> rw [hact] at h <;> cases h <;> exact ⟨rfl, _, rfl⟩

theorem retry_cases {act : Action σ α} {R : Memo σ → Except Error α → Memo σ → Prop}
    (once : ∀ m out m', act m = (out, m') → R m out m')
    (again : ∀ m r m₁ out m', R m (.error (.store r)) m₁ → R m₁ out m' → R m out m') (n : ℕ) :
    ∀ {m m' : Memo σ} {out : Except Error α}, retry act n m = (out, m') → R m out m' := by
  induction n with
  | zero => exact fun h => once _ _ _ h
  | succ n ih =>
    intro m m' out h
    simp only [retry] at h
    split at h
    · next r m₁ hact => exact again m r m₁ out m' (once m _ m₁ hact) (ih h)
    · exact once m out m' h

lemma retry_ends {act : Action σ α} {I : Memo σ → Prop} {Q : Except Error α → Memo σ → Prop}
    (again : ∀ m r m', I m → act m = (.error (.store r), m') → I m')
    (last : ∀ m out m', I m → act m = (out, m') → Q out m') {n : ℕ} {out : Except Error α}
    (h : retry act n m = (out, m')) (hm : I m) : Q out m' := by
  have hends := retry_cases
    (R := fun m out m' => I m → Q out m' ∧ ∀ r, out = .error (.store r) → I m') ?_ ?_ n h hm
  · exact hends.1
  · intro m out m' hact hm
    refine ⟨last m out m' hm hact, ?_⟩
    rintro r rfl
    exact again m r m' hm hact
  · intro m r m₁ out m' hstopped hrest hm
    exact hrest ((hstopped hm).2 r rfl)

end Monad

variable {α β : Type} {s₀ s s' : Session} {t₀ t : Store}

lemma query_cases (h₀ : Reaches s₀ t₀ s) {k : Method} {op : Query Store α} {a : α}
    {out : Except Error α} (h : query (Faulty.call k op) s = (out, s')) (hop : op t₀ = (.ok a, t)) :
    (∃ e, out = .error e ∧ s₀.CanStop e ∧ Reaches s₀ t₀ s') ∨ (out = .ok a ∧ Reaches s₀ t s') := by
  have hcan : ∀ e, (∃ m, 0 < ((s.cache.faults.set (s.cache.faults.get k).rest k).get m).times ∧
      e = .store (Faulty.reason m)) → s₀.CanStop e := by
    rintro e ⟨m, hm, he⟩
    have hle := s.cache.faults.times_get_set_rest_le k m
    exact h₀.canStop e ⟨m, Nat.lt_of_lt_of_le hm hle, he⟩
  rw [query, Faulty.call] at h
  by_cases hstop : (s.cache.faults.get k).Stops
  · simp only [if_pos hstop] at h
    cases h
    exact Or.inl ⟨_, rfl, h₀.canStop _ ⟨k, hstop.2, rfl⟩, h₀.inner, hcan⟩
  · simp only [if_neg hstop, h₀.inner, hop] at h
    cases h
    exact Or.inr ⟨rfl, rfl, hcan⟩

lemma query_bind_cases (h₀ : Reaches s₀ t₀ s) {k : Method} {op : Query Store α} {a : α}
    {f : α → Action (Faulty Store) β} {out : Except Error β}
    (h : (query (Faulty.call k op) >>= f) s = (out, s')) (hop : op t₀ = (.ok a, t)) :
    (∃ e, out = .error e ∧ s₀.CanStop e ∧ Reaches s₀ t₀ s') ∨
      ∃ s₁, Reaches s₀ t s₁ ∧ f a s₁ = (out, s') := by
  obtain ⟨e, hq, rfl⟩ | ⟨b, s₁, hq, h⟩ := bind_cases h
  · obtain ⟨_, ⟨⟩, hstop, hr⟩ | ⟨⟨⟩, -⟩ := query_cases h₀ hq hop
    exact Or.inl ⟨e, rfl, hstop, hr⟩
  · obtain ⟨_, ⟨⟩, -⟩ | ⟨⟨⟩, hr⟩ := query_cases h₀ hq hop
    exact Or.inr ⟨s₁, hr, h⟩

lemma query_pure_cases (h₀ : Reaches s₀ t₀ s) {k : Method} {op : Query Store α} {a : α} {b : β}
    {out : Except Error β} (h : (query (Faulty.call k op) >>= fun _ => pure b) s = (out, s'))
    (hop : op t₀ = (.ok a, t)) :
    (∃ e, out = .error e ∧ s₀.CanStop e ∧ Reaches s₀ t₀ s') ∨ (out = .ok b ∧ Reaches s₀ t s') := by
  obtain hstop | ⟨s₁, hr, h⟩ := query_bind_cases h₀ h hop
  · exact Or.inl hstop
  · obtain ⟨rfl, rfl⟩ := pure_cases h
    exact Or.inr ⟨rfl, hr⟩

lemma countParse_bind_cases (h₀ : Reaches s₀ t₀ s) {f : Unit → Action (Faulty Store) β}
    {out : Except Error β} (h : (countParse >>= f) s = (out, s')) :
    ∃ s₁, Reaches s₀ t₀ s₁ ∧ f () s₁ = (out, s') :=
  ⟨{ s with parses := s.parses + 1 }, ⟨h₀.inner, h₀.canStop⟩, h⟩

theorem retry_keeps {act : Action (Faulty Store) α} {I : Store → Prop}
    {A : Except Error α → Prop}
    (once : ∀ s out s', act s = (out, s') → I s.cache.inner →
      ∃ t, I t ∧ Reaches s t s' ∧ (StopsWith s out ∨ A out))
    {n : ℕ} {out : Except Error α} (h : retry act n s = (out, s')) (hs : I s.cache.inner) :
    ∃ t, I t ∧ Reaches s t s' ∧ (StopsWith s out ∨ A out) := by
  refine retry_cases (R := fun s out s' => I s.cache.inner →
    ∃ t, I t ∧ Reaches s t s' ∧ (StopsWith s out ∨ A out)) once ?_ n h hs
  intro s r s₁ out s' hstopped hrest hs
  obtain ⟨t₁, ht₁, h₁, -⟩ := hstopped hs
  obtain ⟨t, ht, h₂, hout⟩ := hrest (h₁.inner ▸ ht₁)
  refine ⟨t, ht, h₁.trans h₂, hout.imp_left ?_⟩
  rintro ⟨e, he, hcan⟩
  exact ⟨e, he, h₁.canStop e hcan⟩

end Memo

end Polycalc
