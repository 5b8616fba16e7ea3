import Mathlib.Data.List.Forall2
import Mathlib.Tactic.Common

namespace Polycalc.Traversal

variable {ε α β : Type}

lemma map_eq_ok_iff {f : α → β} {x : Except ε α} {b : β} :
    f <$> x = .ok b ↔ ∃ a, x = .ok a ∧ f a = b := by
  cases x with
  | error e => simp [Functor.map, Except.map]
  | ok a => simp [Functor.map, Except.map]

lemma bind_eq_ok_iff {x : Except ε α} {f : α → Except ε β} {b : β} :
    x >>= f = .ok b ↔ ∃ a, x = .ok a ∧ f a = .ok b := by
  cases x with
  | error e => simp [bind, Except.bind]
  | ok a => simp [bind, Except.bind]

lemma map_eq_error_iff {f : α → β} {x : Except ε α} {e : ε} :
    f <$> x = .error e ↔ x = .error e := by
  cases x with
  | error e' => simp [Functor.map, Except.map]
  | ok a => simp [Functor.map, Except.map]

lemma mapM_cons_ok {f : α → Except ε β} {x : α} {y : β} (h : f x = .ok y) (xs : List α) :
    (x :: xs).mapM f = (y :: ·) <$> xs.mapM f := by
  rw [List.mapM_cons, h]
  cases xs.mapM f <;> rfl

lemma mapM_cons_error {f : α → Except ε β} {x : α} {e : ε} (h : f x = .error e) (xs : List α) :
    (x :: xs).mapM f = .error e := by
  rw [List.mapM_cons, h]
  rfl

theorem mapM_eq_ok_iff {f : α → Except ε β} {xs : List α} {ys : List β} :
    xs.mapM f = .ok ys ↔ List.Forall₂ (fun x y => f x = .ok y) xs ys := by
  induction xs generalizing ys with
  | nil =>
    rw [List.forall₂_nil_left_iff, List.mapM_nil]
    exact ⟨fun h => (Except.ok.inj h).symm, fun h => h ▸ rfl⟩
  | cons x xs ih =>
    rw [List.forall₂_cons_left_iff]
    cases hx : f x with
    | error e => simp [mapM_cons_error hx]
    | ok y =>
      rw [mapM_cons_ok hx, map_eq_ok_iff]
      constructor
      · rintro ⟨zs, hzs, rfl⟩
        exact ⟨y, zs, rfl, ih.mp hzs, rfl⟩
      · rintro ⟨z, zs, hz, hzs, rfl⟩
        obtain rfl := Except.ok.inj hz
        exact ⟨zs, ih.mpr hzs, rfl⟩

lemma forall_left_of_forall₂ {R : α → β → Prop} {P : α → Prop} (hP : ∀ x y, R x y → P x)
    {xs : List α} {ys : List β} (h : List.Forall₂ R xs ys) : ∀ x ∈ xs, P x := by
  induction h with
  | nil => simp
  | cons hxy _ ih => exact List.forall_mem_cons.mpr ⟨hP _ _ hxy, ih⟩

lemma forall_right_of_forall₂ {R : α → β → Prop} {P : β → Prop} (hP : ∀ x y, R x y → P y)
    {xs : List α} {ys : List β} (h : List.Forall₂ R xs ys) : ∀ y ∈ ys, P y := by
  induction h with
  | nil => simp
  | cons hxy _ ih => exact List.forall_mem_cons.mpr ⟨hP _ _ hxy, ih⟩

theorem mapM_eq_error_iff {f : α → Except ε β} {xs : List α} {e : ε} :
    xs.mapM f = .error e ↔ ∃ before x after, xs = before ++ x :: after ∧
      (∀ y ∈ before, ∃ z, f y = .ok z) ∧ f x = .error e := by
  induction xs with
  | nil =>
    constructor
    · intro h
      cases h
    · rintro ⟨before, x, after, h, -⟩
      simp at h
  | cons x xs ih =>
    cases hx : f x with
    | error e' =>
      rw [mapM_cons_error hx]
      constructor
      · intro h
        cases h
        exact ⟨[], x, xs, rfl, by simp, hx⟩
      · rintro ⟨_ | ⟨y, before⟩, z, after, h, hok, hz⟩
        · obtain ⟨rfl, -⟩ := List.cons.inj h
          rw [hx] at hz
          cases hz
          rfl
        · obtain ⟨rfl, -⟩ := List.cons.inj h
          obtain ⟨b, hb⟩ := hok x List.mem_cons_self
          rw [hx] at hb
          cases hb
    | ok b =>
      rw [mapM_cons_ok hx, map_eq_error_iff, ih]
      constructor
      · rintro ⟨before, z, after, rfl, hok, hz⟩
        refine ⟨x :: before, z, after, rfl, ?_, hz⟩
        exact List.forall_mem_cons.mpr ⟨⟨b, hx⟩, hok⟩
      · rintro ⟨_ | ⟨y, before⟩, z, after, h, hok, hz⟩
        · obtain ⟨rfl, -⟩ := List.cons.inj h
          rw [hx] at hz
          cases hz
        · obtain ⟨-, rfl⟩ := List.cons.inj h
          exact ⟨before, z, after, rfl, (List.forall_mem_cons.mp hok).2, hz⟩

lemma mapM_append_eq_error_iff {f : α → Except ε β} {xs ys : List α} {e : ε} :
    (xs ++ ys).mapM f = .error e ↔ xs.mapM f = .error e ∨
      (∃ zs, xs.mapM f = .ok zs) ∧ ys.mapM f = .error e := by
  rw [List.mapM_append]
  cases xs.mapM f with
  | error e' => simp [bind, Except.bind]
  | ok zs => cases ys.mapM f <;> simp [bind, Except.bind, pure, Except.pure]

theorem mapM_eq_find? {f : α → Except ε α} {p : α → Prop} [DecidablePred p] {g : α → ε}
    {xs : List α} (h : ∀ x ∈ xs, f x = if p x then .ok x else .error (g x)) :
    xs.mapM f = match xs.find? (¬ p ·) with
      | none => .ok xs
      | some x => .error (g x) := by
  induction xs with
  | nil => rfl
  | cons x xs ih =>
    have hx := h x List.mem_cons_self
    by_cases hp : p x
    · rw [if_pos hp] at hx
      rw [mapM_cons_ok hx, List.find?_cons_of_neg (by simpa using hp),
        ih fun y hy => h y (List.mem_cons_of_mem x hy)]
      cases xs.find? _ <;> rfl
    · rw [if_neg hp] at hx
      rw [mapM_cons_error hx, List.find?_cons_of_pos (by simpa using hp)]

end Polycalc.Traversal
