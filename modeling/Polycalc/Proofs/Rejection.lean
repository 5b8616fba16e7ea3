import Polycalc.Proofs.Grammar.Offence
import Polycalc.Proofs.Grammar.Product

namespace Polycalc

namespace Grammar

open Polycalc.Polynomial (readSum readText)
open Run (IsRun)
open Shape (bracketed)
open Traversal

inductive HasFactors : List Char → List (List Char) → Prop
  | sum {cs : List Char} : Shape.IsBody cs → HasFactors cs [cs]
  | product {fs : List (List Char)} : fs ≠ [] → (∀ f ∈ fs, ∀ c ∈ f, Shape.IsBodyChar c) →
      HasFactors (bracketed fs) fs

structure IsCut (body : List Char) (runs : List (List Char)) : Prop where
  flatten : runs.flatten = Run.withSign body
  isRun : ∀ r ∈ runs, IsRun r

/-- All factors are cut into runs. The first run that is no monomial with a sign is reported. -/
inductive Rejected : List Char → Failure → Prop
  | shapeless {cs : List Char} : (∀ fs, ¬ HasFactors cs fs) →
      Rejected cs (.plain .unsupportedPolynomial)
  | offence {cs run : List Char} {fs before after : List (List Char)}
      {rss : List (List (List Char))} {f : Failure} : HasFactors cs fs →
      List.Forall₂ IsCut fs rss → rss.flatten = before ++ run :: after →
      (∀ r ∈ before, IsSignedMonomial r) → ¬ IsSignedMonomial run → Offence run f → Rejected cs f

def runs (body : List Char) : List (List Char) := Run.split (Run.withSign body)

lemma isCut_iff {body : List Char} {rs : List (List Char)} : IsCut body rs ↔ runs body = rs := by
  rw [runs, Run.split_withSign_eq_iff]
  exact ⟨fun h => ⟨h.flatten, h.isRun⟩, fun h => ⟨h.1, h.2⟩⟩

lemma forall₂_isCut_iff {fs : List (List Char)} {rss : List (List (List Char))} :
    List.Forall₂ IsCut fs rss ↔ fs.map runs = rss := by
  rw [← List.forall₂_eq_eq_eq, List.forall₂_map_left_iff]
  constructor
  · exact fun h => h.imp fun _ _ => isCut_iff.mp
  · exact fun h => h.imp fun _ _ => isCut_iff.mpr

lemma isRun_of_forall₂ {fs : List (List Char)} {rss : List (List (List Char))}
    (h : List.Forall₂ IsCut fs rss) : ∀ r ∈ rss.flatten, IsRun r := by
  intro r hr
  obtain ⟨rs, hrs, hr⟩ := List.mem_flatten.mp hr
  exact forall_right_of_forall₂ (fun _ _ hcut => hcut.isRun) h rs hrs r hr

lemma mapM_readSum_eq_error_iff {fs : List (List Char)} {f : Failure} :
    fs.mapM readSum = .error f ↔ (fs.map runs).flatten.mapM Term.read = .error f := by
  induction fs with
  | nil => simp [pure, Except.pure]
  | cons body fs ih =>
    rw [List.map_cons, List.flatten_cons, mapM_append_eq_error_iff]
    cases hbody : (runs body).mapM Term.read with
    | error e =>
      have hsum : readSum body = .error e := map_eq_error_iff.mpr hbody
      simp [mapM_cons_error hsum]
    | ok ts =>
      have hsum : readSum body = .ok (.ofTerms ts) := map_eq_ok_iff.mpr ⟨ts, hbody, rfl⟩
      rw [mapM_cons_ok hsum, map_eq_error_iff, ih]
      simp

lemma readText_of_hasFactors {cs : List Char} {fs : List (List Char)}
    (h : HasFactors (Text.strip cs) fs) {f : Failure} :
    readText cs = .error f ↔ (fs.map runs).flatten.mapM Term.read = .error f := by
  rw [readText]
  generalize Text.strip cs = text at h
  cases h with
  | sum hbody =>
    rw [Shape.ofText_of_isBody hbody, List.map_singleton, List.flatten_singleton]
    exact map_eq_error_iff
  | product hne hfs =>
    rw [Shape.ofText_eq_product_iff.mpr ⟨hne, rfl, hfs⟩]
    change Polynomial.readProduct fs = .error f ↔ _
    rw [Polynomial.readProduct, foldlM_mul_eq, map_eq_error_iff, mapM_readSum_eq_error_iff]

lemma readText_of_not_hasFactors {cs : List Char} (h : ∀ fs, ¬ HasFactors (Text.strip cs) fs) :
    readText cs = .error (.plain .unsupportedPolynomial) := by
  have hshape : Shape.ofText (Text.strip cs) = .error (.plain .unsupportedPolynomial) := by
    apply Shape.ofText_eq_error_iff.mpr
    refine ⟨rfl, fun hbody => h _ (.sum hbody), ?_⟩
    intro fs hfs
    obtain ⟨hne, hcs, hfs⟩ := Shape.ofText_eq_product_iff.mp hfs
    apply h fs
    rw [hcs]
    exact .product hne hfs
  rw [readText, hshape]
  rfl

lemma mapM_read_eq_error_iff {rs : List (List Char)} (hrs : ∀ r ∈ rs, IsRun r) {f : Failure} :
    rs.mapM Term.read = .error f ↔ ∃ before run after, rs = before ++ run :: after ∧
      (∀ r ∈ before, IsSignedMonomial r) ∧ ¬ IsSignedMonomial run ∧ Offence run f := by
  rw [mapM_eq_error_iff]
  constructor
  · rintro ⟨before, run, after, rfl, hbefore, hrun⟩
    refine ⟨before, run, after, rfl, ?_, ?_⟩
    · intro r hr
      obtain ⟨t, ht⟩ := hbefore r hr
      exact ⟨t, (read_eq_ok_iff (hrs r (by simp [hr]))).mp ht⟩
    · exact (read_eq_error_iff (hrs run (by simp))).mp hrun
  · rintro ⟨before, run, after, rfl, hbefore, hrun⟩
    refine ⟨before, run, after, rfl, ?_, ?_⟩
    · intro r hr
      obtain ⟨t, ht⟩ := hbefore r hr
      exact ⟨t, (read_eq_ok_iff (hrs r (by simp [hr]))).mpr ht⟩
    · exact (read_eq_error_iff (hrs run (by simp))).mpr hrun

theorem readText_eq_error_iff {cs : List Char} {f : Failure} :
    readText cs = .error f ↔ Rejected (Text.strip cs) f := by
  constructor
  · intro h
    by_cases hshape : ∃ fs, HasFactors (Text.strip cs) fs
    · obtain ⟨fs, hfs⟩ := hshape
      have hcut : List.Forall₂ IsCut fs (fs.map runs) := forall₂_isCut_iff.mpr rfl
      rw [readText_of_hasFactors hfs, mapM_read_eq_error_iff (isRun_of_forall₂ hcut)] at h
      obtain ⟨before, run, after, hruns, hbefore, hrun, hoffence⟩ := h
      exact .offence hfs hcut hruns hbefore hrun hoffence
    · have hnone := not_exists.mp hshape
      rw [readText_of_not_hasFactors hnone] at h
      cases h
      exact .shapeless hnone
  · rintro (hnone | ⟨hfs, hcut, hruns, hbefore, hrun, hoffence⟩)
    · exact readText_of_not_hasFactors hnone
    · rw [readText_of_hasFactors hfs, forall₂_isCut_iff.mp hcut,
        mapM_read_eq_error_iff (isRun_of_forall₂ hcut)]
      exact ⟨_, _, _, hruns, hbefore, hrun, hoffence⟩

lemma read_eq_error_iff_readText {raw : String} {e : Error} :
    Polynomial.read raw = .error e ↔
      ∃ f, e = .polynomial f raw ∧ readText raw.toList = .error f := by
  rw [Polynomial.read]
  cases readText raw.toList with
  | ok p => simp [Except.mapError]
  | error f => simp [Except.mapError, eq_comm]

namespace Rejected

variable {cs : List Char} {f : Failure}

lemma kind_ne (h : Rejected cs f) : f.kind ≠ .unsupportedArgument := by
  rcases h with _ | ⟨-, -, -, -, -, h⟩
  · simp [Failure.plain]
  · exact h.kind_ne.2

lemma kind_eq_iff (h : Rejected cs f) :
    f.kind = .unsupportedPolynomial ↔ ∀ fs, ¬ HasFactors cs fs := by
  rcases h with hnone | ⟨hfs, -, -, -, -, h⟩
  · simp [Failure.plain, hnone]
  · constructor
    · intro hkind
      exact (h.kind_ne.1 hkind).elim
    · intro hnone
      exact (hnone _ hfs).elim

lemma parameters (h : Rejected cs f) :
    (f.kind = .unsupportedPolynomial → f.parameters = []) ∧
    (f.kind ≠ .unsupportedPolynomial →
      ∃ text, f.parameters = [String.ofList text] ∧ IsRun text) := by
  rcases h with _ | ⟨-, hcut, hruns, -, -, h⟩
  · simp [Failure.plain]
  · have hrun := isRun_of_forall₂ hcut
    rw [hruns] at hrun
    refine ⟨?_, fun _ => h.parameter (hrun _ (by simp))⟩
    intro hkind
    exact (h.kind_ne.1 hkind).elim

end Rejected

/-- A text is rejected for having neither shape, or for the first of its runs that is no monomial
with a sign. The parameter begins with a sign and has no other. -/
theorem read_rejects_first_offence (raw : String) (e : Error) :
    let text := Text.strip raw.toList
    (Polynomial.read raw = .error e ↔ ∃ f, e = .polynomial f raw ∧ Rejected text f) ∧
    ∀ f, Rejected text f →
      (f.kind = .unsupportedPolynomial ↔ ∀ fs, ¬ HasFactors text fs) ∧
      (f.kind = .unsupportedPolynomial → f.parameters = []) ∧
      (f.kind ≠ .unsupportedPolynomial →
        ∃ parameter, f.parameters = [String.ofList parameter] ∧ IsRun parameter) := by
  intro text
  refine ⟨?_, fun f hf => ⟨hf.kind_eq_iff, hf.parameters⟩⟩
  rw [read_eq_error_iff_readText]
  simp only [readText_eq_error_iff, text]

theorem rejected_for_missing_times :
    Rejected (Text.strip "(x^2 + 1) * (3x - 05)".toList) (.about .misplacedTimes "+3x".toList) := by
  have hread : Polynomial.read "(x^2 + 1) * (3x - 05)" = .error
      (.polynomial (.about .misplacedTimes "+3x".toList) "(x^2 + 1) * (3x - 05)") := by decide
  obtain ⟨f, hf, h⟩ := (read_rejects_first_offence _ _).1.mp hread
  cases hf
  exact h

end Grammar

namespace Polynomial

theorem read_error {raw : String} {e : Error} (h : read raw = .error e) :
    ∃ f, e = .polynomial f raw ∧ f.kind ≠ .unsupportedArgument := by
  obtain ⟨f, he, hf⟩ := Grammar.read_eq_error_iff_readText.mp h
  exact ⟨f, he, (Grammar.readText_eq_error_iff.mp hf).kind_ne⟩

end Polynomial

end Polycalc
