import Polycalc.Polynomial.Reader
import Polycalc.Proofs.Printer

namespace Polycalc

namespace Term

open Text (maxNumeral)
open Traversal

def IsShort (t : Term) : Prop := t.magnitude ≤ maxNumeral ∧ t.degree.toNat ≤ maxNumeral

instance : DecidablePred IsShort := fun t =>
  inferInstanceAs (Decidable (t.magnitude ≤ maxNumeral ∧ t.degree.toNat ≤ maxNumeral))

def excess (t : Term) : Failure :=
  if maxNumeral < t.degree.toNat then .about .badDegree t.run
  else .about .badCoefficient (t.sign :: Text.decimal t.magnitude)

lemma readCoefficient_sign {t : Term} (hz : ¬ t.IsZero) :
    readCoefficient (t.sign :: Text.decimal t.magnitude) =
      if t.magnitude ≤ maxNumeral then .ok t.coefficient
      else .error (.about .badCoefficient (t.sign :: Text.decimal t.magnitude)) := by
  rw [readCoefficient, coefficient?_cons t.isSign_sign, magnitude?_eq,
    if_neg (Text.head?_decimal_ne_zero (magnitude_ne_zero hz)), Text.numeral?_decimal]
  split_ifs
  · exact congrArg Except.ok t.signed_magnitude
  · rfl

lemma readDegree_afterPower (run : List Char) (d : UInt32) :
    readDegree run (afterPower d) =
      if d.toNat ≤ maxNumeral then .ok d else .error (.about .badDegree run) := by
  rw [afterPower]
  by_cases hd : d = 1
  · subst hd
    rfl
  · rw [if_neg hd, readDegree, List.isEmpty_cons, if_neg Bool.false_ne_true, readPower,
      Text.numeral?_decimal]
    split_ifs
    · exact congrArg Except.ok UInt32.ofNat_toNat
    · rfl

lemma isShort_iff {t : Term} (hd : t.degree.toNat ≤ maxNumeral) :
    t.IsShort ↔ t.magnitude ≤ maxNumeral := and_iff_left hd

lemma excess_of_degree_le {t : Term} (hd : t.degree.toNat ≤ maxNumeral) :
    t.excess = .about .badCoefficient (t.sign :: Text.decimal t.magnitude) :=
  if_neg (Nat.not_lt.mpr hd)

lemma excess_of_lt_degree {t : Term} (hd : maxNumeral < t.degree.toNat) :
    t.excess = .about .badDegree t.run := if_pos hd

lemma read_run_constant {t : Term} (hz : ¬ t.IsZero) (hd : t.degree = 0) :
    read t.run = if t.IsShort then .ok t else .error t.excess := by
  have hrun : t.run = t.sign :: Text.decimal t.magnitude := by
    rw [run, renderUnsigned, if_pos hd]
  have hx : 'x' ∉ t.run := by
    rw [hrun, List.mem_cons, not_or]
    refine ⟨fun h => ?_, Text.not_mem_decimal (by decide) _⟩
    rcases t.isSign_sign with hs | hs <;> rw [hs] at h <;> exact absurd h (by decide)
  have hle : t.degree.toNat ≤ maxNumeral := by rw [hd]; decide
  rw [read_of_not_mem hx, hrun, readCoefficient_sign hz, excess_of_degree_le hle]
  simp only [isShort_iff hle]
  split_ifs
  · exact congrArg (fun d => Except.ok (Term.mk d t.coefficient)) hd.symm
  · rfl

lemma read_run_unit {t : Term} (hd : t.degree ≠ 0) (hm : t.magnitude = 1) :
    read t.run = if t.IsShort then .ok t else .error t.excess := by
  have hrun : t.run = t.sign :: 'x' :: afterPower t.degree := by
    rw [run, renderUnsigned, if_neg hd, if_pos hm, renderPower_eq hd]
  have hunit : signed t.sign 1 = t.coefficient := by rw [← hm, signed_magnitude]
  have hread := read_unit t.isSign_sign (afterPower t.degree)
  rw [← hrun, readDegree_afterPower, hunit] at hread
  rw [hread]
  by_cases hle : t.degree.toNat ≤ maxNumeral
  · have hshort : t.IsShort := ⟨by rw [hm]; decide, hle⟩
    rw [if_pos hle, if_pos hshort]
    rfl
  · have hlong : ¬ t.IsShort := fun h => hle h.2
    rw [if_neg hle, if_neg hlong, excess_of_lt_degree (Nat.lt_of_not_le hle)]
    rfl

lemma read_run_multiple {t : Term} (hz : ¬ t.IsZero) (hd : t.degree ≠ 0) (hm : t.magnitude ≠ 1) :
    read t.run = if t.IsShort then .ok t else .error t.excess := by
  have hrun : t.run =
      t.sign :: (Text.decimal t.magnitude ++ ['*'] ++ 'x' :: afterPower t.degree) := by
    rw [run, renderUnsigned, if_neg hd, if_neg hm, renderPower_eq hd, List.append_assoc]
    rfl
  have hx : 'x' ∉ Text.decimal t.magnitude ++ ['*'] := by
    rw [List.mem_append, not_or]
    exact ⟨Text.not_mem_decimal (by decide) _, by decide⟩
  have hread := read_factor t.isSign_sign (List.append_ne_nil_of_right_ne_nil _ (by simp)) hx
    (afterPower t.degree)
  rw [← hrun, readDegree_afterPower, ← List.cons_append, readFactor_append,
    readCoefficient_sign hz] at hread
  rw [hread]
  by_cases hle : t.degree.toNat ≤ maxNumeral
  · rw [if_pos hle, excess_of_degree_le hle]
    simp only [isShort_iff hle]
    split_ifs <;> rfl
  · have hlong : ¬ t.IsShort := fun h => hle h.2
    rw [if_neg hle, if_neg hlong, excess_of_lt_degree (Nat.lt_of_not_le hle)]
    rfl

theorem read_run {t : Term} (hz : ¬ t.IsZero) :
    read t.run = if t.IsShort then .ok t else .error t.excess := by
  by_cases hd : t.degree = 0
  · exact read_run_constant hz hd
  · by_cases hm : t.magnitude = 1
    · exact read_run_unit hd hm
    · exact read_run_multiple hz hd hm

end Term

namespace Polynomial

open Traversal

lemma readSum_strip_renderTerms {t : Term} {ts : List Term} (hz : ∀ u ∈ t :: ts, ¬ u.IsZero) :
    readSum (Text.strip (renderTerms (t :: ts))) =
      match (t :: ts).find? (¬ ·.IsShort) with
      | none => .ok (ofTerms (t :: ts))
      | some u => .error u.excess := by
  have hmap := mapM_eq_find? (f := Term.read ∘ Term.run) fun u hu => Term.read_run (hz u hu)
  rw [readSum, split_strip_renderTerms (hz t List.mem_cons_self), List.mapM_map, hmap]
  cases (t :: ts).find? _ <;> rfl

theorem read_render {p : Polynomial} (hne : p.terms ≠ []) :
    read p.render = match p.terms.find? (¬ ·.IsShort) with
      | none => .ok p
      | some t => .error (.polynomial t.excess p.render) := by
  obtain ⟨t, ts, hts⟩ := List.exists_cons_of_ne_nil hne
  have hz := p.nonzero
  have hp := ofTerms_terms p
  rw [hts] at hz hp
  rw [read, readText, render, String.toList_ofList, hts,
    Shape.ofText_of_isBody (isBody_strip_renderTerms (hz t List.mem_cons_self) ts)]
  change (readSum _).mapError _ = _
  rw [readSum_strip_renderTerms hz, hp]
  cases (t :: ts).find? _ <;> rfl

lemma render_of_nil {p : Polynomial} (h : p.terms = []) : p.render = "0" := by
  rw [render, h]
  rfl

lemma readCanonical_of_nil {p : Polynomial} (h : p.terms = []) :
    readCanonical p.render = .ok p := by
  have hp : p = zero := Polynomial.ext h
  rw [render_of_nil h, hp]
  decide

lemma readCanonical_of_ne_nil {p : Polynomial} (hne : p.terms ≠ []) :
    readCanonical p.render = read p.render := by
  obtain ⟨t, ts, hts⟩ := List.exists_cons_of_ne_nil hne
  have hz : ¬ t.IsZero := p.nonzero t (by rw [hts]; exact List.mem_cons_self)
  rw [readCanonical, if_neg]
  rw [render, String.toList_ofList, hts]
  exact trim_renderTerms_ne hz ts

lemma readCanonical_render_eq (p : Polynomial) :
    readCanonical p.render = match p.terms.find? (¬ ·.IsShort) with
      | none => .ok p
      | some t => .error (.polynomial t.excess p.render) := by
  by_cases hne : p.terms = []
  · rw [readCanonical_of_nil hne, hne]
    rfl
  · rw [readCanonical_of_ne_nil hne, read_render hne]

theorem eq_of_readCanonical_render {p q : Polynomial} (h : readCanonical p.render = .ok q) :
    q = p := by
  rw [readCanonical_render_eq] at h
  cases hf : p.terms.find? (¬ ·.IsShort) with
  | none =>
    rw [hf] at h
    exact (Except.ok.inj h).symm
  | some t =>
    rw [hf] at h
    cases h

/-- Nine digits are the exact bound of the round trip, and the first term that exceeds it is the
one that is reported. -/
theorem readCanonical_render (p : Polynomial) :
    zero.render = "0" ∧
    (readCanonical p.render = .ok p ↔ ∀ t ∈ p.terms, t.IsShort) ∧
    ∀ before t after, p.terms = before ++ t :: after → (∀ s ∈ before, s.IsShort) → ¬ t.IsShort →
      readCanonical p.render = .error (.polynomial t.excess p.render) := by
  refine ⟨render_of_nil rfl, ?_, ?_⟩
  · rw [readCanonical_render_eq]
    cases hf : p.terms.find? (¬ ·.IsShort) with
    | none => simpa using hf
    | some t =>
      have hmem := List.mem_of_find?_eq_some hf
      have hlong := List.find?_some hf
      exact ⟨nofun, fun h => absurd (h t hmem) (by simpa using hlong)⟩
  · intro before t after hterms hbefore hlong
    have hf : p.terms.find? (¬ ·.IsShort) = some t := by
      rw [hterms, List.find?_append, List.find?_eq_none.mpr (by simpa using hbefore),
        List.find?_cons_of_pos (by simpa using hlong)]
      rfl
    rw [readCanonical_render_eq, hf]

theorem readCanonical_render_ten_digits :
    let p := ofTerms [⟨2, -1⟩, ⟨1, 1000000000⟩, ⟨4294967295, 3⟩]
    readCanonical p.render = .error
      (.polynomial (.about .badCoefficient "+1000000000".toList) p.render) :=
  (readCanonical_render _).2.2 [⟨2, -1⟩] ⟨1, 1000000000⟩ [⟨4294967295, 3⟩] (by decide)
    (by decide) (by decide)

end Polynomial

end Polycalc
