import Mathlib.Tactic.Common
import Polycalc.Polynomial.Reader

namespace Polycalc.Run

def IsRun (r : List Char) : Prop := ∃ s m, r = s :: m ∧ IsSign s ∧ ∀ c ∈ m, ¬ IsSign c

lemma isSign_plus : IsSign '+' := Or.inl rfl

lemma isSign_minus : IsSign '-' := Or.inr rfl

lemma cut_of_not_isSign {c : Char} (h : ¬ IsSign c) (r : List Char) :
    cut (c :: r) = (c :: (cut r).1, (cut r).2) := by simp [cut, h]

lemma cut_append {m : List Char} (h : ∀ c ∈ m, ¬ IsSign c) (cs : List Char) :
    cut (m ++ cs) = (m ++ (cut cs).1, (cut cs).2) := by
  induction m with
  | nil => rfl
  | cons c m ih =>
    have hm : ∀ d ∈ m, ¬ IsSign d := fun d hd => h d (List.mem_cons_of_mem c hd)
    rw [List.cons_append, cut_of_not_isSign (h c List.mem_cons_self), ih hm]
    rfl

lemma cut_flatten_runs {runs : List (List Char)} (h : ∀ r ∈ runs, IsRun r) :
    cut runs.flatten = ([], runs) := by
  induction runs with
  | nil => rfl
  | cons r runs ih =>
    obtain ⟨s, m, rfl, hs, hm⟩ := h r List.mem_cons_self
    rw [List.flatten_cons, List.cons_append, cut_of_isSign hs, cut_append hm,
      ih fun r hr => h r (List.mem_cons_of_mem _ hr), List.append_nil]

theorem split_runs {runs : List (List Char)} (h : ∀ r ∈ runs, IsRun r) :
    split runs.flatten = runs := by
  rw [split, cut_flatten_runs h]

lemma cut_fst_not_isSign (cs : List Char) : ∀ c ∈ (cut cs).1, ¬ IsSign c := by
  induction cs with
  | nil => exact fun c hc => (List.not_mem_nil hc).elim
  | cons d r ih =>
    by_cases hd : IsSign d
    · rw [cut_of_isSign hd]
      exact fun c hc => (List.not_mem_nil hc).elim
    · intro c hc
      rw [cut_of_not_isSign hd] at hc
      rcases List.mem_cons.mp hc with rfl | hc
      · exact hd
      · exact ih c hc

lemma isRun_of_mem_cut (cs : List Char) : ∀ r ∈ (cut cs).2, IsRun r := by
  induction cs with
  | nil => exact fun r hr => (List.not_mem_nil hr).elim
  | cons d cs ih =>
    intro r hr
    by_cases hd : IsSign d
    · rw [cut_of_isSign hd] at hr
      rcases List.mem_cons.mp hr with rfl | hr
      · exact ⟨d, (cut cs).1, rfl, hd, cut_fst_not_isSign cs⟩
      · exact ih r hr
    · rw [cut_of_not_isSign hd] at hr
      exact ih r hr

theorem isRun_of_mem_split {cs r : List Char} (h : r ∈ split cs) : IsRun r := by
  rw [split] at h
  split at h
  case h_1 runs hcut =>
    exact isRun_of_mem_cut cs r (by rw [hcut]; exact h)
  case h_2 => exact (List.not_mem_nil h).elim

def LeadFree (cs : List Char) : Prop := ∀ c ∈ cs.head?, IsSign c

theorem split_eq_iff {cs : List Char} (h : LeadFree cs) {runs : List (List Char)} :
    split cs = runs ↔ runs.flatten = cs ∧ ∀ r ∈ runs, IsRun r := by
  constructor
  · rintro rfl
    refine ⟨?_, fun r => isRun_of_mem_split⟩
    cases cs with
    | nil => rfl
    | cons c r => exact split_flatten (h c rfl) r
  · rintro ⟨rfl, hruns⟩
    exact split_runs hruns

lemma split_of_not_isSign {c : Char} (h : ¬ IsSign c) (r : List Char) : split (c :: r) = [] := by
  rw [split, cut_of_not_isSign h]

lemma withSign_of_ne {cs : List Char} (h : cs.head? ≠ some '-') : withSign cs = '+' :: cs := by
  cases cs with
  | nil => rfl
  | cons c r =>
    have hc : c ≠ '-' := fun hc => h (by rw [hc]; rfl)
    rw [withSign]
    rintro r ⟨⟩
    exact hc rfl

lemma leadFree_cons {s : Char} (hs : IsSign s) (m : List Char) : LeadFree (s :: m) := by
  rintro _ ⟨⟩
  exact hs

lemma leadFree_withSign (cs : List Char) : LeadFree (withSign cs) := by
  by_cases h : cs.head? = some '-'
  · obtain ⟨r, rfl⟩ := List.head?_eq_some_iff.mp h
    exact leadFree_cons isSign_minus r
  · rw [withSign_of_ne h]
    exact leadFree_cons isSign_plus cs

theorem split_withSign_eq_iff {cs : List Char} {runs : List (List Char)} :
    split (withSign cs) = runs ↔ runs.flatten = withSign cs ∧ ∀ r ∈ runs, IsRun r :=
  split_eq_iff (leadFree_withSign cs)

theorem split_withSign_flatten (cs : List Char) :
    (split (withSign cs)).flatten = withSign cs := (split_withSign_eq_iff.mp rfl).1

theorem split_append {cs ds : List Char} (hcs : LeadFree cs) (hds : LeadFree ds) :
    split (cs ++ ds) = split cs ++ split ds := by
  have hruns : ∀ r ∈ split cs ++ split ds, IsRun r := by
    intro r hr
    rcases List.mem_append.mp hr with hr | hr
    · exact isRun_of_mem_split hr
    · exact isRun_of_mem_split hr
  have hjoin : (split cs ++ split ds).flatten = cs ++ ds := by
    rw [List.flatten_append, ((split_eq_iff hcs).mp rfl).1, ((split_eq_iff hds).mp rfl).1]
  rw [← hjoin, split_runs hruns]

lemma withSign_append {cs : List Char} (h : cs ≠ []) (ds : List Char) :
    withSign (cs ++ ds) = withSign cs ++ ds := by
  obtain ⟨c, r, rfl⟩ := List.exists_cons_of_ne_nil h
  by_cases hc : c = '-'
  · subst hc
    rfl
  · rw [List.cons_append, withSign_of_ne (by simpa using hc), withSign_of_ne (by simpa using hc)]
    rfl

theorem split_withSign_append {cs : List Char} (h : cs ≠ []) (ds : List Char) :
    split (withSign (cs ++ withSign ds)) = split (withSign cs) ++ split (withSign ds) := by
  rw [withSign_append h]
  exact split_append (leadFree_withSign cs) (leadFree_withSign ds)

def BeginsWithSign (u : String) : Prop := ∃ s m, u.toList = s :: m ∧ IsSign s

variable {u : String}

lemma BeginsWithSign.leadFree (h : BeginsWithSign u) : LeadFree u.toList := by
  obtain ⟨s, m, hu, hs⟩ := h
  rw [hu]
  exact leadFree_cons hs m

lemma split_of_not_beginsWithSign (hne : u ≠ "") (h : ¬ BeginsWithSign u) :
    split u.toList = [] := by
  have hne' : u.toList ≠ [] := by simpa using hne
  obtain ⟨c, r, hu⟩ := List.exists_cons_of_ne_nil hne'
  rw [hu]
  exact split_of_not_isSign (fun hc => h ⟨c, r, hu, hc⟩) r

/-- A text that begins with a sign, or is empty, is joined from its runs and from no other runs; a
text that begins with anything else has none. No run goes across the seam of two signed texts. -/
theorem split_is_the_only_split_into_runs (u : String) :
    (u = "" ∨ BeginsWithSign u →
      (split u.toList).flatten = u.toList ∧ (∀ r ∈ split u.toList, IsRun r) ∧
        ∀ runs, runs.flatten = u.toList → (∀ r ∈ runs, IsRun r) → runs = split u.toList) ∧
    (u ≠ "" → ¬ BeginsWithSign u → split u.toList = []) ∧
    ∀ v, BeginsWithSign u → BeginsWithSign v →
      split (u ++ v).toList = split u.toList ++ split v.toList := by
  refine ⟨?_, split_of_not_beginsWithSign, ?_⟩
  · intro h
    have hlead : LeadFree u.toList := by
      rcases h with rfl | hu
      · nofun
      · exact hu.leadFree
    obtain ⟨hflatten, hruns⟩ := (split_eq_iff hlead).mp rfl
    refine ⟨hflatten, hruns, ?_⟩
    intro runs hjoin hrun
    exact ((split_eq_iff hlead).mpr ⟨hjoin, hrun⟩).symm
  · intro v hu hv
    rw [String.toList_append]
    exact split_append hu.leadFree hv.leadFree

theorem split_of_adjacent_signs :
    (BeginsWithSign "--x" ∧ split "--x".toList = [['-'], ['-', 'x']]) ∧
    (BeginsWithSign "+2*x^" ∧
      split ("+2*x^" ++ "--x").toList = split "+2*x^".toList ++ [['-'], ['-', 'x']]) ∧
    "x--" ≠ "" ∧ ¬ BeginsWithSign "x--" ∧ split "x--".toList = [] := by
  have hminus : BeginsWithSign "--x" := ⟨'-', ['-', 'x'], by decide, isSign_minus⟩
  have hplus : BeginsWithSign "+2*x^" := ⟨'+', ['2', '*', 'x', '^'], by decide, isSign_plus⟩
  have hlead : ¬ BeginsWithSign "x--" := by
    rintro ⟨s, m, h, hs⟩
    cases h
    exact absurd hs (by decide)
  obtain ⟨-, -, honly⟩ := (split_is_the_only_split_into_runs "--x").1 (Or.inr hminus)
  have hruns : [['-'], ['-', 'x']] = split "--x".toList := by
    apply honly _ (by decide)
    have hx : ∀ c ∈ ['x'], ¬ IsSign c := List.forall_mem_singleton.mpr (by decide)
    refine List.forall_mem_cons.mpr ⟨⟨'-', [], rfl, isSign_minus, nofun⟩, ?_⟩
    exact List.forall_mem_singleton.mpr ⟨'-', ['x'], rfl, isSign_minus, hx⟩
  have hjoined := (split_is_the_only_split_into_runs "+2*x^").2.2 "--x" hplus hminus
  have hnone := (split_is_the_only_split_into_runs "x--").2.1 (by decide) hlead
  rw [← hruns] at hjoined
  exact ⟨⟨hminus, hruns.symm⟩, ⟨hplus, hjoined⟩, by decide, hlead, hnone⟩

end Polycalc.Run
