import Mathlib.Tactic.Common
import Polycalc.Polynomial

namespace Polycalc.Polynomial

def IsAdditive (f : Term → Int64) : Prop := ∀ d a b, f ⟨d, a + b⟩ = f ⟨d, a⟩ + f ⟨d, b⟩

def total (f : Term → Int64) (ts : List Term) : Int64 := (ts.map f).sum

@[simp] lemma total_cons (f : Term → Int64) (t : Term) (ts : List Term) :
    total f (t :: ts) = f t + total f ts := rfl

@[simp] lemma total_append (f : Term → Int64) (ts us : List Term) :
    total f (ts ++ us) = total f ts + total f us := by
  rw [total, List.map_append, List.sum_append]
  rfl

@[simp] lemma total_flatMap (f : Term → Int64) (g : Term → List Term) (ts : List Term) :
    total f (ts.flatMap g) = total (fun t => total f (g t)) ts := by
  induction ts with
  | nil => rfl
  | cons t ts ih => rw [List.flatMap_cons, total_append, total_cons, ih]

@[simp] lemma total_map (f : Term → Int64) (g : Term → Term) (ts : List Term) :
    total f (ts.map g) = total (fun t => f (g t)) ts := by
  rw [total, List.map_map]
  rfl

lemma total_perm {ts us : List Term} (h : ts.Perm us) (f : Term → Int64) :
    total f ts = total f us := by
  induction h with
  | nil => rfl
  | cons t _ ih => rw [total_cons, total_cons, ih]
  | swap s t ts =>
    simp only [total_cons]
    rw [← Int64.add_assoc, ← Int64.add_assoc, Int64.add_comm (f t)]
  | trans _ _ ih ih' => exact ih.trans ih'

lemma IsAdditive.zero {f : Term → Int64} (hf : IsAdditive f) (d : UInt32) : f ⟨d, 0⟩ = 0 := by
  have h := hf d 0 0
  rw [Int64.add_zero] at h
  grind

lemma total_addTerm {f : Term → Int64} (hf : IsAdditive f) (t : Term) (ts : List Term) :
    total f (addTerm t ts) = f t + total f ts := by
  induction ts with
  | nil => rfl
  | cons s r ih =>
    rw [addTerm]
    split_ifs with hlt heq
    · rfl
    · obtain ⟨d, a⟩ := s
      obtain ⟨e, b⟩ := t
      obtain rfl : d = e := heq
      rw [total_cons, total_cons, hf, Int64.add_assoc]
    · rw [total_cons, total_cons, ih]
      grind

lemma terms_ofTerms (ts : List Term) : (ofTerms ts).terms = ts.filter (¬ ·.IsZero) := rfl

lemma total_ofTerms {f : Term → Int64} (hf : IsAdditive f) (ts : List Term) :
    total f (ofTerms ts).terms = total f ts := by
  rw [terms_ofTerms]
  induction ts with
  | nil => rfl
  | cons t ts ih =>
    by_cases ht : t.IsZero
    · have hz : f t = 0 := by
        obtain ⟨d, a⟩ := t
        obtain rfl : a = 0 := ht
        exact hf.zero d
      rw [List.filter_cons_of_neg (by simpa using ht), ih, total_cons, hz, Int64.zero_add]
    · rw [List.filter_cons_of_pos (by simpa using ht), total_cons, ih, total_cons]

theorem total_collect {f : Term → Int64} (hf : IsAdditive f) (ts : List Term) :
    total f (collect ts).terms = total f ts := by
  rw [collect, total_ofTerms hf]
  induction ts with
  | nil => rfl
  | cons t ts ih => rw [List.foldr_cons, total_addTerm hf, ih, total_cons]

lemma isAdditive_evaluate (x : Int64) : IsAdditive (Term.evaluate · x) :=
  fun _ _ _ => Int64.add_mul

lemma evaluate_eq_total (p : Polynomial) (x : Int64) :
    p.evaluate x = total (Term.evaluate · x) p.terms := by
  rw [evaluate, total, List.sum, List.foldr_map]

theorem evaluate_simplify (p : Polynomial) (x : Int64) : p.simplify.evaluate x = p.evaluate x := by
  rw [evaluate_eq_total, evaluate_eq_total, simplify, total_collect (isAdditive_evaluate x)]

def coefficientAt (d : UInt32) (t : Term) : Int64 := if t.degree = d then t.coefficient else 0

def coefficientSum (ts : List Term) (d : UInt32) : Int64 := total (coefficientAt d) ts

lemma isAdditive_coefficientAt (d : UInt32) : IsAdditive (coefficientAt d) := by
  intro e a b
  by_cases h : e = d <;> simp [coefficientAt, h]

theorem coefficientSum_collect (ts : List Term) (d : UInt32) :
    coefficientSum (collect ts).terms d = coefficientSum ts d :=
  total_collect (isAdditive_coefficientAt d) ts

lemma descending_iff_pairwise (ts : List Term) :
    Descending ts ↔ ts.Pairwise fun s t => t.degree < s.degree := by
  induction ts with
  | nil => simp [Descending]
  | cons s r ih =>
    cases r with
    | nil => simp [Descending]
    | cons t r =>
      rw [Descending, ih, List.pairwise_cons (a := s)]
      constructor
      · rintro ⟨hts, hr⟩
        refine ⟨?_, hr⟩
        intro u hu
        rcases List.mem_cons.mp hu with rfl | hu
        · exact hts
        · exact UInt32.lt_trans ((List.pairwise_cons.mp hr).1 u hu) hts
      · rintro ⟨hs, hr⟩
        exact ⟨hs t List.mem_cons_self, hr⟩

lemma degree_of_mem_addTerm {t u : Term} {ts : List Term} (h : u ∈ addTerm t ts) :
    u.degree = t.degree ∨ ∃ s ∈ ts, u.degree = s.degree := by
  induction ts with
  | nil => exact Or.inl (by rw [List.mem_singleton.mp h])
  | cons s r ih =>
    rw [addTerm] at h
    split_ifs at h with hlt heq
    · rcases List.mem_cons.mp h with rfl | h
      · exact Or.inl rfl
      · exact Or.inr ⟨u, h, rfl⟩
    · rcases List.mem_cons.mp h with rfl | h
      · exact Or.inl heq
      · exact Or.inr ⟨u, List.mem_cons_of_mem s h, rfl⟩
    · rcases List.mem_cons.mp h with rfl | h
      · exact Or.inr ⟨u, List.mem_cons_self, rfl⟩
      · rcases ih h with h | ⟨v, hv, h⟩
        · exact Or.inl h
        · exact Or.inr ⟨v, List.mem_cons_of_mem s hv, h⟩

lemma pairwise_addTerm (t : Term) {ts : List Term}
    (h : ts.Pairwise fun s t => t.degree < s.degree) :
    (addTerm t ts).Pairwise fun s t => t.degree < s.degree := by
  induction ts with
  | nil => exact List.pairwise_singleton _ t
  | cons s r ih =>
    obtain ⟨hs, hr⟩ := List.pairwise_cons.mp h
    rw [addTerm]
    split_ifs with hlt heq
    · refine List.pairwise_cons.mpr ⟨?_, h⟩
      intro u hu
      rcases List.mem_cons.mp hu with rfl | hu
      · exact hlt
      · exact UInt32.lt_trans (hs u hu) hlt
    · exact List.pairwise_cons.mpr ⟨hs, hr⟩
    · refine List.pairwise_cons.mpr ⟨?_, ih hr⟩
      intro u hu
      rcases degree_of_mem_addTerm hu with h | ⟨v, hv, h⟩
      · rw [h]
        exact UInt32.lt_of_le_of_ne (UInt32.not_lt.mp hlt) (Ne.symm heq)
      · rw [h]
        exact hs v hv

theorem isCanonical_collect (ts : List Term) : (collect ts).IsCanonical := by
  rw [IsCanonical, descending_iff_pairwise]
  refine List.Pairwise.filter _ ?_
  induction ts with
  | nil => exact List.Pairwise.nil
  | cons t ts ih => exact pairwise_addTerm t ih

@[simp] lemma coefficientSum_cons (t : Term) (ts : List Term) (d : UInt32) :
    coefficientSum (t :: ts) d = coefficientAt d t + coefficientSum ts d := rfl

lemma coefficientSum_eq_zero {ts : List Term} {d : UInt32} (h : ∀ t ∈ ts, t.degree < d) :
    coefficientSum ts d = 0 := by
  induction ts with
  | nil => rfl
  | cons t ts ih =>
    have hne : t.degree ≠ d := UInt32.ne_of_lt (h t List.mem_cons_self)
    rw [coefficientSum_cons, ih fun u hu => h u (List.mem_cons_of_mem t hu), coefficientAt,
      if_neg hne, Int64.add_zero]

lemma coefficientSum_head {t : Term} {ts : List Term} (h : ∀ u ∈ ts, u.degree < t.degree) :
    coefficientSum (t :: ts) t.degree = t.coefficient := by
  rw [coefficientSum_cons, coefficientSum_eq_zero h, coefficientAt, if_pos rfl, Int64.add_zero]

lemma degree_le_of_coefficientSum {t u : Term} {ts us : List Term}
    (ht : ∀ v ∈ ts, v.degree < t.degree) (hu : ∀ v ∈ us, v.degree < u.degree)
    (hz : ¬ t.IsZero) (h : coefficientSum (t :: ts) t.degree = coefficientSum (u :: us) t.degree) :
    t.degree ≤ u.degree := by
  by_contra hlt
  have hlt := UInt32.not_le.mp hlt
  -- then no term of the other list has the degree of `t`
  have hzero : coefficientSum (u :: us) t.degree = 0 := by
    refine coefficientSum_eq_zero ?_
    intro v hv
    rcases List.mem_cons.mp hv with rfl | hv
    · exact hlt
    · exact UInt32.lt_trans (hu v hv) hlt
  rw [coefficientSum_head ht, hzero] at h
  exact hz h

lemma terms_eq_of_coefficientSum {ts us : List Term}
    (hts : ts.Pairwise fun s t => t.degree < s.degree)
    (hus : us.Pairwise fun s t => t.degree < s.degree)
    (htz : ∀ t ∈ ts, ¬ t.IsZero) (huz : ∀ u ∈ us, ¬ u.IsZero)
    (h : ∀ d, coefficientSum ts d = coefficientSum us d) : ts = us := by
  induction ts generalizing us with
  | nil =>
    cases us with
    | nil => rfl
    | cons u us =>
      have hu := h u.degree
      rw [coefficientSum_head (List.pairwise_cons.mp hus).1] at hu
      exact (huz u List.mem_cons_self hu.symm).elim
  | cons t ts ih =>
    obtain ⟨ht, hts'⟩ := List.pairwise_cons.mp hts
    cases us with
    | nil =>
      have hu := h t.degree
      rw [coefficientSum_head ht] at hu
      exact (htz t List.mem_cons_self hu).elim
    | cons u us =>
      obtain ⟨hu, hus'⟩ := List.pairwise_cons.mp hus
      have hd : t.degree = u.degree := UInt32.le_antisymm
        (degree_le_of_coefficientSum ht hu (htz t List.mem_cons_self) (h t.degree))
        (degree_le_of_coefficientSum hu ht (huz u List.mem_cons_self) (h u.degree).symm)
      have hc : t.coefficient = u.coefficient := by
        rw [← coefficientSum_head ht, ← coefficientSum_head hu, h, hd]
      obtain rfl : t = u := congrArg₂ Term.mk hd hc
      refine congrArg (t :: ·) (ih hts' hus' (fun v hv => htz v (List.mem_cons_of_mem t hv))
        (fun v hv => huz v (List.mem_cons_of_mem t hv)) ?_)
      intro d
      have hh := h d
      rw [coefficientSum_cons, coefficientSum_cons] at hh
      exact (Int64.add_right_inj _).mp hh

theorem IsCanonical.eq_of_coefficientSum {p q : Polynomial} (hp : p.IsCanonical)
    (hq : q.IsCanonical) (h : ∀ d, coefficientSum p.terms d = coefficientSum q.terms d) : p = q := by
  rw [IsCanonical, descending_iff_pairwise] at hp hq
  ext1
  exact terms_eq_of_coefficientSum hp hq p.nonzero q.nonzero h

theorem simplify_eq_iff (p q : Polynomial) :
    p.simplify = q.simplify ↔ ∀ d, coefficientSum p.terms d = coefficientSum q.terms d := by
  constructor
  · intro h d
    rw [← coefficientSum_collect p.terms, ← coefficientSum_collect q.terms]
    exact congrArg (fun r => coefficientSum r.terms d) h
  · intro h
    apply (isCanonical_collect p.terms).eq_of_coefficientSum (isCanonical_collect q.terms)
    intro d
    rw [coefficientSum_collect, coefficientSum_collect, h]

lemma isCanonical_simplify (p : Polynomial) : p.simplify.IsCanonical := isCanonical_collect p.terms

lemma IsCanonical.simplify_eq {p : Polynomial} (hp : p.IsCanonical) : p.simplify = p := by
  apply p.isCanonical_simplify.eq_of_coefficientSum hp
  intro d
  exact coefficientSum_collect p.terms d

@[simp] lemma simplify_simplify (p : Polynomial) : p.simplify.simplify = p.simplify :=
  p.isCanonical_simplify.simplify_eq

end Polycalc.Polynomial
