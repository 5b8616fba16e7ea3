import Polycalc.Proofs.Grammar.Monomial

namespace Polycalc.Grammar

open Run (IsSign IsRun)
open Term (readCoefficient readDegree readFactor)
open Traversal

def IsSignedMonomial (run : List Char) : Prop := ∃ t, SignedMonomial run t

inductive IsPower : List Char → Prop
  | first : IsPower []
  | degree {es : List Char} : IsDegree es → IsPower ('^' :: es)

inductive Offence : List Char → Failure → Prop
  | constant {run : List Char} : 'x' ∉ run → Offence run (.about .badCoefficient run)
  | caret {b a : List Char} : 'x' ∉ b → a ≠ [] → a.head? ≠ some '^' →
      Offence (b ++ 'x' :: a) (.about .misplacedCaret (b ++ 'x' :: a))
  | degree {b es : List Char} : 'x' ∉ b → ¬ IsDegree es →
      Offence (b ++ 'x' :: '^' :: es) (.about .badDegree (b ++ 'x' :: '^' :: es))
  | times {b a : List Char} : 'x' ∉ b → b.length ≠ 1 → IsPower a → b.getLast? ≠ some '*' →
      Offence (b ++ 'x' :: a) (.about .misplacedTimes (b ++ 'x' :: a))
  | factor {literal a : List Char} : 'x' ∉ literal → IsPower a →
      Offence (literal ++ '*' :: 'x' :: a) (.about .badCoefficient literal)

lemma eq_of_readCoefficient {literal : List Char} {f : Failure}
    (h : readCoefficient literal = .error f) : f = .about .badCoefficient literal := by
  rw [readCoefficient] at h
  split at h <;> cases h
  rfl

lemma readPower_eq_error_iff {run after : List Char} {f : Failure} :
    Term.readPower run after = .error f ↔
      (after.head? ≠ some '^' ∧ f = .about .misplacedCaret run) ∨
      ∃ es, after = '^' :: es ∧ ¬ IsDegree es ∧ f = .about .badDegree run := by
  rw [Term.readPower.eq_def]
  split
  case h_1 es =>
    cases hn : Text.numeral? es with
    | none =>
      have hes : ¬ IsDegree es := by
        intro h
        simp [numeral?_eq_some_iff.mpr ⟨h, rfl⟩] at hn
      simp [hes, eq_comm]
    | some n =>
      obtain ⟨hes, -⟩ := numeral?_eq_some_iff.mp hn
      simp [hes]
  case h_2 hne =>
    have hhead : after.head? ≠ some '^' := by
      intro h
      obtain ⟨es, rfl⟩ := List.head?_eq_some_iff.mp h
      exact hne es rfl
    have hcons : ∀ es, after ≠ '^' :: es := hne
    simp [hhead, hcons, eq_comm]

lemma readDegree_eq_error_iff {run after : List Char} {f : Failure} :
    readDegree run after = .error f ↔ after ≠ [] ∧
      ((after.head? ≠ some '^' ∧ f = .about .misplacedCaret run) ∨
      ∃ es, after = '^' :: es ∧ ¬ IsDegree es ∧ f = .about .badDegree run) := by
  cases after with
  | nil => simp [readDegree_nil]
  | cons c r => simp [readDegree_cons, readPower_eq_error_iff]

lemma exists_readDegree_iff {run after : List Char} :
    (∃ e, readDegree run after = .ok e) ↔ IsPower after := by
  constructor
  · rintro ⟨e, he⟩
    rcases readDegree_eq_ok_iff.mp he with ⟨rfl, -⟩ | ⟨es, rfl, hes, -⟩
    · exact .first
    · exact .degree hes
  · rintro (_ | hes)
    · exact ⟨1, readDegree_nil _⟩
    · exact ⟨_, readDegree_eq_ok_iff.mpr (Or.inr ⟨_, rfl, hes, rfl⟩)⟩

lemma unit?_eq_none {b : List Char} (h : b.length ≠ 1) : Term.unit? b = none := by
  rw [Term.unit?.eq_def]
  split
  · simp at h
  · rfl

lemma unit?_isSome_of_isRun {b r : List Char} (hr : IsRun (b ++ r)) (h : b.length = 1) :
    ∃ c, Term.unit? b = some c := by
  obtain ⟨c, rfl⟩ := List.length_eq_one_iff.mp h
  obtain ⟨s, m, hsm, hs, -⟩ := hr
  obtain ⟨rfl, -⟩ := List.cons.inj hsm
  rcases hs with rfl | rfl
  · exact ⟨1, rfl⟩
  · exact ⟨-1, rfl⟩

lemma read_of_readDegree {b a : List Char} (hx : 'x' ∉ b) {f : Failure}
    (h : readDegree (b ++ 'x' :: a) a = .error f) : Term.read (b ++ 'x' :: a) = .error f := by
  rw [Term.read_append hx, h]
  rfl

lemma read_of_isPower {b a : List Char} (hx : 'x' ∉ b) (hlen : b.length ≠ 1) (ha : IsPower a) :
    ∃ d, Term.read (b ++ 'x' :: a) = (⟨d, ·⟩) <$> readFactor (b ++ 'x' :: a) b := by
  obtain ⟨d, hd⟩ := exists_readDegree_iff.mpr ha
  refine ⟨d, ?_⟩
  rw [Term.read_append hx, hd, unit?_eq_none hlen]
  rfl

lemma offence_of_readDegree {b a : List Char} (hx : 'x' ∉ b) {f : Failure}
    (h : readDegree (b ++ 'x' :: a) a = .error f) : Offence (b ++ 'x' :: a) f := by
  obtain ⟨hne, ⟨hhead, rfl⟩ | ⟨es, rfl, hes, rfl⟩⟩ := readDegree_eq_error_iff.mp h
  · exact .caret hx hne hhead
  · exact .degree hx hes

lemma offence_of_readFactor {b a : List Char} (hx : 'x' ∉ b) (hlen : b.length ≠ 1)
    (ha : IsPower a) {f : Failure} (h : readFactor (b ++ 'x' :: a) b = .error f) :
    Offence (b ++ 'x' :: a) f := by
  by_cases hlast : b.getLast? = some '*'
  · obtain ⟨literal, rfl⟩ := List.getLast?_eq_some_iff.mp hlast
    rw [Term.readFactor_append] at h
    rw [eq_of_readCoefficient h, List.append_assoc]
    apply Offence.factor ?_ ha
    exact fun hmem => hx (List.mem_append_left _ hmem)
  · rw [readFactor, if_neg hlast] at h
    cases h
    exact .times hx hlen ha hlast

lemma offence_of_read {run : List Char} (hr : IsRun run) {f : Failure}
    (h : Term.read run = .error f) : Offence run f := by
  by_cases hx : 'x' ∈ run
  · obtain ⟨b, a, rfl, hb⟩ := List.eq_append_cons_of_mem hx
    by_cases ha : IsPower a
    · by_cases hlen : b.length = 1
      · obtain ⟨c, hc⟩ := unit?_isSome_of_isRun hr hlen
        obtain ⟨d, hd⟩ := exists_readDegree_iff.mpr ha
        rw [Term.read_append hb, hd, hc] at h
        cases h
      · obtain ⟨d, hd⟩ := read_of_isPower hb hlen ha
        rw [hd, map_eq_error_iff] at h
        exact offence_of_readFactor hb hlen ha h
    · cases hd : readDegree (b ++ 'x' :: a) a with
      | ok d => exact (ha (exists_readDegree_iff.mp ⟨d, hd⟩)).elim
      | error g =>
        rw [read_of_readDegree hb hd] at h
        cases h
        exact offence_of_readDegree hb hd
  · rw [Term.read_of_not_mem hx, map_eq_error_iff] at h
    rw [eq_of_readCoefficient h]
    exact .constant hx

lemma length_ne_one_of_isRun {literal r : List Char} (hr : IsRun (literal ++ '*' :: r)) :
    (literal ++ ['*']).length ≠ 1 := by
  obtain ⟨s, m, h, hs, -⟩ := hr
  cases literal with
  | nil =>
    obtain ⟨rfl, -⟩ := List.cons.inj h
    rcases hs with hs | hs <;> cases hs
  | cons c literal => simp

lemma Offence.eq_of_read {run : List Char} (hr : IsRun run) {f g : Failure} (h : Offence run f)
    (hg : Term.read run = .error g) : f = g := by
  cases h with
  | constant hx =>
    rw [Term.read_of_not_mem hx, map_eq_error_iff] at hg
    exact (eq_of_readCoefficient hg).symm
  | @caret b a hx hne hhead =>
    have hd : readDegree (b ++ 'x' :: a) a = .error (.about .misplacedCaret (b ++ 'x' :: a)) :=
      readDegree_eq_error_iff.mpr ⟨hne, Or.inl ⟨hhead, rfl⟩⟩
    exact Except.error.inj ((read_of_readDegree hx hd).symm.trans hg)
  | @degree b es hx hes =>
    have hd : readDegree (b ++ 'x' :: '^' :: es) ('^' :: es) =
        .error (.about .badDegree (b ++ 'x' :: '^' :: es)) :=
      readDegree_eq_error_iff.mpr ⟨List.cons_ne_nil _ _, Or.inr ⟨es, rfl, hes, rfl⟩⟩
    exact Except.error.inj ((read_of_readDegree hx hd).symm.trans hg)
  | times hx hlen ha hlast =>
    obtain ⟨d, hd⟩ := read_of_isPower hx hlen ha
    rw [hd, map_eq_error_iff, readFactor, if_neg hlast] at hg
    exact Except.error.inj hg
  | @factor literal a hx ha =>
    have hx : 'x' ∉ literal ++ ['*'] := by simp [hx]
    obtain ⟨d, hd⟩ := read_of_isPower hx (length_ne_one_of_isRun hr) ha
    rw [List.append_assoc, List.singleton_append] at hd
    rw [hd, map_eq_error_iff, Term.readFactor_append] at hg
    exact (eq_of_readCoefficient hg).symm

theorem read_eq_error_iff {run : List Char} (hr : IsRun run) {f : Failure} :
    Term.read run = .error f ↔ ¬ IsSignedMonomial run ∧ Offence run f := by
  constructor
  · intro h
    refine ⟨?_, offence_of_read hr h⟩
    rintro ⟨t, ht⟩
    rw [(read_eq_ok_iff hr).mpr ht] at h
    cases h
  · rintro ⟨hbad, h⟩
    cases hread : Term.read run with
    | ok t => exact (hbad ⟨t, (read_eq_ok_iff hr).mp hread⟩).elim
    | error g => rw [h.eq_of_read hr hread]

lemma Offence.parameter {run : List Char} (hr : IsRun run) {f : Failure} (h : Offence run f) :
    ∃ text, f.parameters = [String.ofList text] ∧ IsRun text := by
  cases h with
  | constant _ | caret _ _ _ | degree _ _ | times _ _ _ _ => exact ⟨_, rfl, hr⟩
  | @factor literal a _ _ =>
    refine ⟨literal, rfl, ?_⟩
    have hlen := length_ne_one_of_isRun hr
    obtain ⟨s, m, h, hs, hm⟩ := hr
    cases literal with
    | nil => simp at hlen
    | cons c literal =>
      obtain ⟨rfl, rfl⟩ := List.cons.inj h
      exact ⟨c, literal, rfl, hs, fun d hd => hm d (List.mem_append_left _ hd)⟩

lemma Offence.kind_ne {run : List Char} {f : Failure} (h : Offence run f) :
    f.kind ≠ .unsupportedPolynomial ∧ f.kind ≠ .unsupportedArgument := by
  cases h <;> simp [Failure.about]

end Polycalc.Grammar
