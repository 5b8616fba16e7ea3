import Mathlib.Tactic.Common
import Polycalc.Polynomial.Reader

namespace Polycalc.Shape

def closing : List (List Char) → List Char
  | [] => [')']
  | f :: fs => ')' :: '*' :: '(' :: (f ++ closing fs)

def bracketed : List (List Char) → List Char
  | [] => []
  | f :: fs => '(' :: (f ++ closing fs)

lemma not_isBodyChar_close : ¬ IsBodyChar ')' := by decide

lemma not_isBodyChar_open : ¬ IsBodyChar '(' := by decide

lemma inside_cons {c : Char} (hc : IsBodyChar c) (cs : List Char) :
    inside (c :: cs) = (inside cs).map fun (f, fs) => (c :: f, fs) := by
  have hne : c ≠ ')' := by
    rintro rfl
    exact not_isBodyChar_close hc
  rw [inside.eq_def]
  split
  · next h => exact (hne (List.cons.inj h).1).elim
  · next h => exact (hne (List.cons.inj h).1).elim
  · next h =>
    obtain ⟨rfl, rfl⟩ := List.cons.inj h
    rw [if_pos hc]
  · next h => cases h

lemma inside_append {f : List Char} (hf : ∀ c ∈ f, IsBodyChar c) {fs : List (List Char)}
    (hfs : ∀ g ∈ fs, ∀ c ∈ g, IsBodyChar c) : inside (f ++ closing fs) = some (f, fs) := by
  induction fs generalizing f with
  | nil =>
    induction f with
    | nil => rfl
    | cons c f ih =>
      obtain ⟨hc, hf⟩ := List.forall_mem_cons.mp hf
      rw [List.cons_append, inside_cons hc, ih hf]
      rfl
  | cons g gs ihs =>
    obtain ⟨hg, hgs⟩ := List.forall_mem_cons.mp hfs
    induction f with
    | nil =>
      rw [List.nil_append, closing, inside, ihs hg hgs]
      rfl
    | cons c f ih =>
      obtain ⟨hc, hf⟩ := List.forall_mem_cons.mp hf
      rw [List.cons_append, inside_cons hc, ih hf]
      rfl

lemma eq_of_inside {cs f : List Char} {fs : List (List Char)} (h : inside cs = some (f, fs)) :
    cs = f ++ closing fs ∧ (∀ c ∈ f, IsBodyChar c) ∧ ∀ g ∈ fs, ∀ c ∈ g, IsBodyChar c := by
  fun_induction inside cs generalizing f fs with
  | case1 =>
    obtain ⟨rfl, rfl⟩ := Prod.mk.inj (Option.some.inj h)
    exact ⟨rfl, nofun, nofun⟩
  | case2 r ih =>
    obtain ⟨⟨g, gs⟩, hr, h⟩ := Option.map_eq_some_iff.mp h
    obtain ⟨rfl, rfl⟩ := Prod.mk.inj h
    obtain ⟨rfl, hg, hgs⟩ := ih hr
    exact ⟨rfl, nofun, List.forall_mem_cons.mpr ⟨hg, hgs⟩⟩
  | case3 c r _ _ hc ih =>
    obtain ⟨⟨g, gs⟩, hr, h⟩ := Option.map_eq_some_iff.mp h
    obtain ⟨rfl, rfl⟩ := Prod.mk.inj h
    obtain ⟨rfl, hg, hgs⟩ := ih hr
    exact ⟨rfl, List.forall_mem_cons.mpr ⟨hc, hg⟩, hgs⟩
  | case4 => cases h
  | case5 => cases h

theorem factors?_eq_some_iff {cs : List Char} {fs : List (List Char)} :
    factors? cs = some fs ↔
      fs ≠ [] ∧ cs = bracketed fs ∧ ∀ f ∈ fs, ∀ c ∈ f, IsBodyChar c := by
  constructor
  · intro h
    rw [factors?.eq_def] at h
    split at h
    case h_1 r =>
      obtain ⟨⟨f, gs⟩, hr, rfl⟩ := Option.map_eq_some_iff.mp h
      obtain ⟨rfl, hf, hgs⟩ := eq_of_inside hr
      exact ⟨List.cons_ne_nil _ _, rfl, List.forall_mem_cons.mpr ⟨hf, hgs⟩⟩
    case h_2 => cases h
  · rintro ⟨hne, rfl, h⟩
    obtain ⟨f, gs, rfl⟩ := List.exists_cons_of_ne_nil hne
    obtain ⟨hf, hgs⟩ := List.forall_mem_cons.mp h
    rw [bracketed, factors?, inside_append hf hgs]
    rfl

def IsBody (cs : List Char) : Prop := cs ≠ [] ∧ ∀ c ∈ cs, IsBodyChar c

instance : DecidablePred IsBody := fun cs =>
  decidable_of_iff (¬ cs.isEmpty ∧ cs.all (IsBodyChar ·)) (by simp [IsBody])

lemma ofText_of_isBody {cs : List Char} (h : IsBody cs) : ofText cs = .ok (.sum cs) := by
  rw [ofText, if_pos]
  rw [Bool.and_eq_true, Bool.not_eq_true', List.isEmpty_eq_false_iff, List.all_eq_true]
  exact ⟨h.1, fun c hc => decide_eq_true (h.2 c hc)⟩

lemma ofText_of_not_isBody {cs : List Char} (h : ¬ IsBody cs) :
    ofText cs = match factors? cs with
      | some fs => .ok (.product fs)
      | none => .error (.plain .unsupportedPolynomial) := by
  have hneg : ¬ (!cs.isEmpty && cs.all (IsBodyChar ·)) = true := by
    rw [Bool.and_eq_true, Bool.not_eq_true', List.isEmpty_eq_false_iff, List.all_eq_true]
    exact fun hcs => h ⟨hcs.1, fun c hc => of_decide_eq_true (hcs.2 c hc)⟩
  exact if_neg hneg

lemma not_isBody_bracketed (fs : List (List Char)) : ¬ IsBody (bracketed fs) := by
  rintro ⟨hne, h⟩
  cases fs with
  | nil => exact hne rfl
  | cons f fs => exact not_isBodyChar_open (h '(' List.mem_cons_self)

theorem ofText_eq_sum_iff {cs body : List Char} :
    ofText cs = .ok (.sum body) ↔ IsBody cs ∧ body = cs := by
  by_cases hbody : IsBody cs
  · simp [ofText_of_isBody hbody, hbody, eq_comm]
  · rw [ofText_of_not_isBody hbody]
    cases factors? cs <;> simp [hbody]

theorem ofText_eq_product_iff {cs : List Char} {fs : List (List Char)} :
    ofText cs = .ok (.product fs) ↔
      fs ≠ [] ∧ cs = bracketed fs ∧ ∀ f ∈ fs, ∀ c ∈ f, IsBodyChar c := by
  rw [← factors?_eq_some_iff]
  by_cases hbody : IsBody cs
  · have hfactors : factors? cs ≠ some fs := by
      intro h
      obtain ⟨-, rfl, -⟩ := factors?_eq_some_iff.mp h
      exact not_isBody_bracketed fs hbody
    simp [ofText_of_isBody hbody, hfactors]
  · rw [ofText_of_not_isBody hbody]
    cases factors? cs <;> simp

theorem ofText_eq_error_iff {cs : List Char} {f : Failure} :
    ofText cs = .error f ↔
      f = .plain .unsupportedPolynomial ∧ ¬ IsBody cs ∧ ∀ fs, ofText cs ≠ .ok (.product fs) := by
  by_cases hbody : IsBody cs
  · simp [ofText_of_isBody hbody, hbody]
  · rw [ofText_of_not_isBody hbody]
    cases factors? cs <;> simp [hbody, eq_comm]

end Polycalc.Shape
