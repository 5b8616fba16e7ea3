import Polycalc.Argument
import Polycalc.Proofs.Rejection

namespace Polycalc.Failure

def slot : List Char := ['%', 's']

def cut : List Char → List Char × Option (List Char)
  | '%' :: 's' :: r => ([], some r)
  | c :: r => (c :: (cut r).1, (cut r).2)
  | [] => ([], none)

def shown (f : Failure) : String := f.parameters.headD "null"

lemma fill_eq (cs : List Char) (ps : List String) :
    fill cs ps = (cut cs).1 ++
      ((cut cs).2.map fun r => (ps.headD "null").toList ++ fill r ps.tail).getD [] := by
  induction cs using cut.induct with
  | case1 r => cases ps <;> simp [cut, fill]
  | case2 c r hslot ih =>
    rw [cut, fill, ih]
    · rfl
    · exact fun r' _ => hslot r'
    · exact fun r' _ _ _ => hslot r'
    · exact hslot
  | case3 => simp [cut, fill]

lemma cut_fst {cs : List Char} (h : (cut cs).2 = none) : (cut cs).1 = cs := by
  fun_induction cut cs with
  | case1 => cases h
  | case2 c r _ ih => simp [ih h]
  | case3 => rfl

lemma fill_eq_self {cs : List Char} (h : (cut cs).2 = none) (ps : List String) :
    fill cs ps = cs := by
  rw [fill_eq, h, cut_fst h]
  exact List.append_nil cs

lemma eq_of_cut {cs r : List Char} (h : (cut cs).2 = some r) : (cut cs).1 ++ slot ++ r = cs := by
  fun_induction cut cs with
  | case1 r' =>
    cases h
    rfl
  | case2 c r' _ ih => simpa using ih h
  | case3 => cases h

lemma cut_append (b a : List Char) :
    cut (b ++ slot ++ a) = ((cut b).1, some (((cut b).2.map (· ++ slot ++ a)).getD a)) := by
  fun_induction cut b with
  | case1 r => simp [cut]
  | case2 c r hslot ih =>
    rw [List.cons_append, List.cons_append, cut, ih]
    intro r' hc hr
    cases r with
    | nil => simp [slot] at hr
    | cons d r =>
      obtain ⟨rfl, -⟩ := List.cons.inj hr
      exact hslot r hc rfl
  | case3 => simp [cut, slot]

lemma append_slot_eq_iff {cs b' a' b a : List Char} (hb : (cut cs).1 = b) (ha : (cut cs).2 = some a)
    (hone : (cut a).2 = none) : cs = b' ++ slot ++ a' ↔ b' = b ∧ a' = a := by
  constructor
  · rintro rfl
    rw [cut_append] at hb ha
    cases hcut : (cut b').2 with
    | none =>
      rw [cut_fst hcut] at hb
      rw [hcut] at ha
      exact ⟨hb, Option.some.inj ha⟩
    | some r =>
      have hr : r ++ slot ++ a' = a := by simpa [hcut] using ha
      rw [← hr, cut_append] at hone
      cases hone
  · rintro ⟨rfl, rfl⟩
    rw [← hb, eq_of_cut ha]

lemma toList_append_slot (b a : String) :
    (b ++ "%s" ++ a).toList = b.toList ++ slot ++ a.toList := by
  rw [String.toList_append, String.toList_append]
  rfl

namespace Kind

def HasSlot (k : Kind) : Prop := ∃ before after, k.template = before ++ "%s" ++ after

def front (k : Kind) : List Char := (cut k.template.toList).1

def back (k : Kind) : List Char := (cut k.template.toList).2.getD []

lemma hasSlot_iff (k : Kind) : k.HasSlot ↔ (cut k.template.toList).2 = some k.back := by
  constructor
  · rintro ⟨b, a, h⟩
    rw [back, h, toList_append_slot, cut_append]
    rfl
  · intro h
    refine ⟨String.ofList k.front, String.ofList k.back, String.toList_injective ?_⟩
    rw [toList_append_slot, String.toList_ofList, String.toList_ofList]
    exact (eq_of_cut h).symm

lemma cut_of_not_hasSlot {k : Kind} (h : ¬ k.HasSlot) : (cut k.template.toList).2 = none := by
  rw [hasSlot_iff, back] at h
  cases hcut : (cut k.template.toList).2 with
  | none => rfl
  | some a => simp [hcut] at h

def frames : List (Kind × List Char × Option (List Char)) :=
  all.map fun k => (k, cut k.template.toList)

lemma mem_frames (k : Kind) : (k, cut k.template.toList) ∈ frames := List.mem_map_of_mem k.mem_all

lemma forall_frames : ∀ p ∈ frames,
    (p.2.2.isSome ↔ p.1 ≠ unsupportedPolynomial ∧ p.1 ≠ unsupportedArgument) ∧
    (cut (p.2.2.getD [])).2 = none ∧
    ∀ q ∈ frames, p.2.1 <+: q.2.1 ∨ q.2.1 <+: p.2.1 →
      p.2.2.getD [] <:+ q.2.2.getD [] ∨ q.2.2.getD [] <:+ p.2.2.getD [] → p.1 = q.1 := by
  -- the templates letter by letter, which would take long to work out by evaluation
  have hpolynomial : (template .unsupportedPolynomial).toList = _ :=
    String.toList_append.trans (congrArg₂ (· ++ ·) String.toList_ofList String.toList_ofList)
  have hargument : (template .unsupportedArgument).toList = _ := String.toList_ofList
  have hcoefficient : (template .badCoefficient).toList = _ := String.toList_ofList
  have htimes : (template .misplacedTimes).toList = _ :=
    String.toList_append.trans (congrArg₂ (· ++ ·) String.toList_ofList String.toList_ofList)
  have hdegree : (template .badDegree).toList = _ := String.toList_ofList
  have hcaret : (template .misplacedCaret).toList = _ :=
    String.toList_append.trans (congrArg₂ (· ++ ·) String.toList_ofList String.toList_ofList)
  rw [frames, all, List.map_cons, List.map_cons, List.map_cons, List.map_cons, List.map_cons,
    List.map_cons, List.map_nil, hpolynomial, hargument, hcoefficient, htimes, hdegree, hcaret]
  decide +kernel

lemma hasSlot_iff_ne (k : Kind) :
    k.HasSlot ↔ k ≠ .unsupportedPolynomial ∧ k ≠ .unsupportedArgument := by
  rw [← (forall_frames _ k.mem_frames).1, hasSlot_iff, back]
  cases (cut k.template.toList).2 <;> simp

lemma cut_back (k : Kind) : (cut k.back).2 = none := (forall_frames _ k.mem_frames).2.1

lemma eq_of_front_of_back {k l : Kind} (hfront : k.front <+: l.front ∨ l.front <+: k.front)
    (hback : k.back <:+ l.back ∨ l.back <:+ k.back) : k = l :=
  (forall_frames _ k.mem_frames).2.2 _ l.mem_frames hfront hback

lemma template_eq_iff {k : Kind} (h : k.HasSlot) (b a : String) :
    k.template = b ++ "%s" ++ a ↔ b = String.ofList k.front ∧ a = String.ofList k.back := by
  rw [← String.toList_inj, toList_append_slot,
    append_slot_eq_iff rfl (k.hasSlot_iff.mp h) k.cut_back, ← String.toList_inj,
    ← String.toList_inj, String.toList_ofList, String.toList_ofList]
  rfl

end Kind

lemma toList_message_of_hasSlot {f : Failure} (h : f.kind.HasSlot) :
    f.message.toList = f.kind.front ++ f.shown.toList ++ f.kind.back := by
  rw [message, String.toList_ofList, fill_eq, f.kind.hasSlot_iff.mp h, Option.map_some,
    Option.getD_some, fill_eq_self f.kind.cut_back, List.append_assoc]
  rfl

lemma message_of_hasSlot {f : Failure} (h : f.kind.HasSlot) :
    f.message = String.ofList f.kind.front ++ f.shown ++ String.ofList f.kind.back := by
  rw [← String.toList_inj, toList_message_of_hasSlot h]
  simp

lemma message_of_not_hasSlot {f : Failure} (h : ¬ f.kind.HasSlot) :
    f.message = f.kind.template := by
  rw [message, fill_eq_self (Kind.cut_of_not_hasSlot h), String.ofList_toList]

lemma front_prefix_of_message (f : Failure) : f.kind.front <+: f.message.toList := by
  by_cases h : f.kind.HasSlot
  · rw [toList_message_of_hasSlot h, List.append_assoc]
    exact List.prefix_append _ _
  · have hfront : f.kind.front = f.kind.template.toList := cut_fst (Kind.cut_of_not_hasSlot h)
    refine ⟨[], ?_⟩
    rw [List.append_nil, message_of_not_hasSlot h, hfront]

lemma back_suffix_of_message (f : Failure) : f.kind.back <:+ f.message.toList := by
  by_cases h : f.kind.HasSlot
  · rw [toList_message_of_hasSlot h]
    exact List.suffix_append _ _
  · rw [Kind.back, Kind.cut_of_not_hasSlot h]
    exact List.nil_suffix

variable {f g : Failure}

lemma kind_eq_of_message_eq (h : f.message = g.message) : f.kind = g.kind := by
  have hfront := f.front_prefix_of_message
  have hback := f.back_suffix_of_message
  rw [h] at hfront hback
  apply Kind.eq_of_front_of_back
  · exact List.prefix_or_prefix_of_prefix hfront g.front_prefix_of_message
  · exact List.suffix_or_suffix_of_suffix hback g.back_suffix_of_message

lemma message_eq_iff :
    f.message = g.message ↔ f.kind = g.kind ∧ (f.kind.HasSlot → f.shown = g.shown) := by
  constructor
  · intro h
    have hkind := kind_eq_of_message_eq h
    refine ⟨hkind, ?_⟩
    intro hslot
    rw [← String.toList_inj, toList_message_of_hasSlot hslot,
      toList_message_of_hasSlot (hkind ▸ hslot), ← hkind] at h
    exact String.toList_inj.mp (List.append_cancel_left (List.append_cancel_right h))
  · rintro ⟨hkind, hshown⟩
    by_cases hslot : f.kind.HasSlot
    · rw [message_of_hasSlot hslot, message_of_hasSlot (hkind ▸ hslot), ← hkind, hshown hslot]
    · rw [message_of_not_hasSlot hslot, message_of_not_hasSlot (hkind ▸ hslot), hkind]

def IsRaised (f : Failure) : Prop := ∃ raw e,
  (Polynomial.read raw = .error e ∨ Argument.read raw = .error e) ∧ e.failure? = some f

lemma IsRaised.parameters (h : f.IsRaised) :
    (f.kind.HasSlot → f.parameters = [f.shown]) ∧ (¬ f.kind.HasSlot → f.parameters = []) := by
  obtain ⟨raw, e, hpolynomial | hargument, hf⟩ := h
  · obtain ⟨f', rfl, hread⟩ := Grammar.read_eq_error_iff_readText.mp hpolynomial
    cases hf
    have hrejected := Grammar.readText_eq_error_iff.mp hread
    obtain ⟨hnone, hone⟩ := hrejected.parameters
    rw [Kind.hasSlot_iff_ne, and_iff_left hrejected.kind_ne]
    refine ⟨?_, fun hkind => hnone (not_not.mp hkind)⟩
    intro hkind
    obtain ⟨text, htext, -⟩ := hone hkind
    simp [shown, htext]
  · cases Argument.read_error hargument
    cases hf
    rw [Kind.hasSlot_iff_ne]
    exact ⟨fun h => absurd rfl h.2, fun _ => rfl⟩

lemma IsRaised.eq_of_message_eq (hf : f.IsRaised) (hg : g.IsRaised) (h : f.message = g.message) :
    f = g := by
  obtain ⟨hkind, hshown⟩ := message_eq_iff.mp h
  have hparameters : f.parameters = g.parameters := by
    by_cases hslot : f.kind.HasSlot
    · rw [hf.parameters.1 hslot, hg.parameters.1 (hkind ▸ hslot), hshown hslot]
    · rw [hf.parameters.2 hslot, hg.parameters.2 (hkind ▸ hslot)]
  cases f
  cases g
  exact congrArg₂ Failure.mk hkind hparameters

/-- A message is the template of the kind, with what is shown put into its one slot as it is if it
has one. It tells the kind and what is shown, and so tells all failures apart that texts are
rejected for. -/
theorem message_identifies_failure (f g : Failure) :
    (f.kind.HasSlot → ∃ before after,
      (∀ b a, f.kind.template = b ++ "%s" ++ a ↔ b = before ∧ a = after) ∧
      f.message = before ++ f.parameters.headD "null" ++ after) ∧
    (¬ f.kind.HasSlot → f.message = f.kind.template) ∧
    (f.message = g.message ↔
      f.kind = g.kind ∧
        (f.kind.HasSlot → f.parameters.headD "null" = g.parameters.headD "null")) ∧
    (f.IsRaised → g.IsRaised → f.message = g.message → f = g) := by
  refine ⟨?_, message_of_not_hasSlot, message_eq_iff, fun hf hg => hf.eq_of_message_eq hg⟩
  intro hslot
  exact ⟨_, _, Kind.template_eq_iff hslot, message_of_hasSlot hslot⟩

end Polycalc.Failure
