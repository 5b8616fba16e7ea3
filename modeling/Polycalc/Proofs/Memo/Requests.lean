import Mathlib.Algebra.BigOperators.Group.Finset.Basic
import Polycalc.Answer
import Polycalc.Argument
import Polycalc.Proofs.RoundTrip

/-! Requests one after another, apart from any store: the texts and arguments that they name, and
how many times a polynomial has to be read for them. -/

namespace Polycalc

def Argument.IsAccepted (argument : String) : Prop := ∃ x, read argument = .ok x

def Polynomial.IsAccepted (raw : String) : Prop := ∃ p, read raw = .ok p

instance : DecidablePred Argument.IsAccepted := fun argument =>
  match h : Argument.read argument with
  | .ok x => isTrue ⟨x, h⟩
  | .error _ => isFalse fun ⟨_, hx⟩ => nomatch h.symm.trans hx

instance : DecidablePred Polynomial.IsAccepted := fun raw =>
  match h : Polynomial.read raw with
  | .ok p => isTrue ⟨p, h⟩
  | .error _ => isFalse fun ⟨_, hp⟩ => nomatch h.symm.trans hp

namespace Request

/-- Any request but one to evaluate at what is no argument. -/
def IsRecorded (r : Request) : Prop := ∀ x ∈ r.argument, Argument.IsAccepted x

instance : DecidablePred IsRecorded := fun r =>
  inferInstanceAs (Decidable (∀ x ∈ r.argument, Argument.IsAccepted x))

def texts (rs : List Request) : Finset String := (rs.map (·.polynomial)).toFinset

def arguments (rs : List Request) (raw : String) : Finset String :=
  ((rs.filter (·.polynomial = raw)).filterMap (·.argument)).toFinset

def valueKeys (rs : List Request) (raw : String) : Finset (String × String) :=
  (arguments rs raw).map ⟨(raw, ·), Prod.mk_right_injective raw⟩

def opening (rs : List Request) (raw : String) : ℕ :=
  if ((rs.find? (·.polynomial = raw)).bind (·.argument)).isSome then 1 else 0

/-- How many times a recorded text is read for a value: its canonical text alone, or with it the
text itself where numbers in the canonical text are too long. -/
def rereads (raw : String) : ℕ :=
  match Polynomial.read raw with
  | .ok p => if ∀ t ∈ p.simplify.terms, t.IsShort then 1 else 2
  | .error _ => 0

def readings (rs : List Request) (raw : String) : ℕ :=
  1 + rereads raw * ((arguments rs raw).card - opening rs raw)

def charge (rs : List Request) (r : Request) : ℕ :=
  if r.polynomial ∉ texts rs then 1
  else if ∃ x ∈ r.argument, x ∉ arguments rs r.polynomial then rereads r.polynomial
  else 0

variable {rs : List Request} {r : Request} {raw x : String}

lemma mem_texts : raw ∈ texts rs ↔ ∃ r ∈ rs, r.polynomial = raw := by simp [texts]

lemma mem_arguments :
    x ∈ arguments rs raw ↔ ∃ r ∈ rs, r.polynomial = raw ∧ r.argument = some x := by
  simp [arguments, and_assoc]

lemma mem_texts_of_mem_arguments (h : x ∈ arguments rs raw) : raw ∈ texts rs := by
  obtain ⟨r, hr, hraw, -⟩ := mem_arguments.mp h
  exact mem_texts.mpr ⟨r, hr, hraw⟩

lemma mem_valueKeys {key : String} :
    (key, x) ∈ valueKeys rs raw ↔ raw = key ∧ x ∈ arguments rs raw := by
  simp [valueKeys, and_comm]

lemma pairwiseDisjoint_valueKeys (rs : List Request) (s : Set String) :
    s.PairwiseDisjoint (valueKeys rs) := by
  intro raw _ raw' _ hne
  rw [Function.onFun, Finset.disjoint_left]
  rintro ⟨key, x⟩ h h'
  exact hne ((mem_valueKeys.mp h).1.trans (mem_valueKeys.mp h').1.symm)

lemma rereads_eq_zero (h : ¬ Polynomial.IsAccepted raw) : rereads raw = 0 := by
  rw [rereads]
  split
  · next p hp => exact absurd ⟨p, hp⟩ h
  · rfl

lemma texts_append (rs : List Request) (r : Request) :
    texts (rs ++ [r]) = insert r.polynomial (texts rs) := by
  ext raw
  simp [mem_texts, or_comm, eq_comm, or_and_right, exists_or]

lemma mem_arguments_append : x ∈ arguments (rs ++ [r]) raw ↔
    x ∈ arguments rs raw ∨ r.polynomial = raw ∧ r.argument = some x := by
  simp [mem_arguments, or_and_right, exists_or]

lemma arguments_append_of_ne (h : r.polynomial ≠ raw) :
    arguments (rs ++ [r]) raw = arguments rs raw := by
  ext x
  simp [mem_arguments_append, h]

lemma opening_append_of_ne (h : r.polynomial ≠ raw) :
    opening (rs ++ [r]) raw = opening rs raw := by
  simp [opening, List.find?_append, h]

lemma opening_append_of_mem (h : raw ∈ texts rs) :
    opening (rs ++ [r]) raw = opening rs raw := by
  obtain ⟨r', hr', hraw⟩ := mem_texts.mp h
  have hfound : (rs.find? (·.polynomial = raw)).isSome := by
    rw [List.find?_isSome]
    exact ⟨r', hr', by simpa using hraw⟩
  obtain ⟨first, hfirst⟩ := Option.isSome_iff_exists.mp hfound
  rw [opening, List.find?_append, hfirst]
  simp [opening, hfirst]

lemma opening_le (rs : List Request) (raw : String) :
    opening rs raw ≤ (arguments rs raw).card := by
  rw [opening]
  split_ifs with hsome
  · obtain ⟨x, hx⟩ := Option.isSome_iff_exists.mp hsome
    obtain ⟨first, hfirst, harg⟩ := Option.bind_eq_some_iff.mp hx
    have hraw := List.find?_some hfirst
    refine Finset.card_pos.mpr ⟨x, mem_arguments.mpr ⟨first, ?_, by simpa using hraw, harg⟩⟩
    exact List.mem_of_find?_eq_some hfirst
  · exact Nat.zero_le _

lemma readings_append_of_ne (h : r.polynomial ≠ raw) :
    readings (rs ++ [r]) raw = readings rs raw := by
  rw [readings, readings, arguments_append_of_ne h, opening_append_of_ne h]

lemma readings_append_of_not_mem (h : r.polynomial ∉ texts rs) :
    readings (rs ++ [r]) r.polynomial = 1 := by
  have hother : ∀ r' ∈ rs, r'.polynomial ≠ r.polynomial := by
    intro r' hr' heq
    exact h (mem_texts.mpr ⟨r', hr', heq⟩)
  have hfilter : rs.filter (·.polynomial = r.polynomial) = [] := by simpa using hother
  have hfind : rs.find? (·.polynomial = r.polynomial) = none := by simpa using hother
  have hsame : (arguments (rs ++ [r]) r.polynomial).card = opening (rs ++ [r]) r.polynomial := by
    rw [arguments, opening, List.filter_append, hfilter, List.find?_append, hfind]
    cases harg : r.argument <;> simp [harg]
  rw [readings, hsame, Nat.sub_self, Nat.mul_zero]

lemma readings_append_of_mem (h : r.polynomial ∈ texts rs) :
    readings (rs ++ [r]) r.polynomial = readings rs r.polynomial + charge rs r := by
  have hle := opening_le rs r.polynomial
  rw [charge, if_neg (not_not.mpr h), readings, readings, opening_append_of_mem h]
  split_ifs with hnew
  · obtain ⟨x, hx, hx'⟩ := hnew
    have harguments : arguments (rs ++ [r]) r.polynomial =
        insert x (arguments rs r.polynomial) := by
      ext y
      simp [mem_arguments_append, Option.mem_def.mp hx, or_comm, eq_comm]
    rw [harguments, Finset.card_insert_of_notMem hx', Nat.succ_sub hle, Nat.mul_succ,
      Nat.add_assoc]
  · have harguments : arguments (rs ++ [r]) r.polynomial = arguments rs r.polynomial := by
      ext y
      rw [mem_arguments_append]
      refine or_iff_left_of_imp ?_
      rintro ⟨-, hy⟩
      by_contra hy'
      exact hnew ⟨y, hy, hy'⟩
    rw [harguments, Nat.add_zero]

theorem sum_readings_append (rs : List Request) (r : Request) :
    ∑ raw ∈ texts (rs ++ [r]), readings (rs ++ [r]) raw =
      ∑ raw ∈ texts rs, readings rs raw + charge rs r := by
  have hrest : ∀ s : Finset String, r.polynomial ∉ s →
      ∑ raw ∈ s, readings (rs ++ [r]) raw = ∑ raw ∈ s, readings rs raw := by
    intro s hs
    refine Finset.sum_congr rfl fun raw hraw => readings_append_of_ne ?_
    rintro rfl
    exact hs hraw
  rw [texts_append]
  by_cases h : r.polynomial ∈ texts rs
  · have herase := hrest _ (Finset.notMem_erase r.polynomial (texts rs))
    rw [Finset.insert_eq_of_mem h, ← Finset.add_sum_erase _ _ h, ← Finset.add_sum_erase _ _ h,
      herase, readings_append_of_mem h, Nat.add_right_comm]
  · rw [Finset.sum_insert h, hrest _ h, readings_append_of_not_mem h, charge, if_pos h, add_comm]

end Request

end Polycalc
