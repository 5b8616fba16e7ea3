import Mathlib.Algebra.Order.BigOperators.Group.Finset
import Polycalc.Proofs.Memo.Direct
import Polycalc.Proofs.Memo.Requests
import Polycalc.Proofs.Store

namespace Polycalc

lemma Request.not_isRecorded_iff {r : Request} : ¬ r.IsRecorded ↔ ∃ x, r.argument = some x ∧
    Argument.read x = .error (.argument (.plain .unsupportedArgument)) := by
  simp only [IsRecorded, Argument.IsAccepted, Option.mem_def, not_forall, exists_prop]
  refine exists_congr fun x => and_congr_right fun _ => ?_
  cases hx : Argument.read x with
  | ok y => simp
  | error e => simp [Argument.read_error hx]

namespace Store

variable {t : Store} {raw argument key x : String}

lemma isSome_record?_putRecord (r : Record) : ((t.putRecord raw r).record? key).isSome ↔
    (t.record? key).isSome ∨ raw = key := by
  rw [record?_putRecord]
  split_ifs with h <;> simp [h]

lemma isSome_record?_putValue (v : Int64) (r : Record) :
    ((t.putValue raw argument v (some r)).record? key).isSome ↔
      (t.record? key).isSome ∨ raw = key := by
  rw [record?_putValue, isSome_record?_link]

lemma isSome_value?_putValue (v : Int64) (linked : Option Record) :
    ((t.putValue raw argument v linked).value? key x).isSome ↔
      (t.value? key x).isSome ∨ raw = key ∧ argument = x := by
  rw [value?_putValue]
  split_ifs with h <;> simp [h]

end Store

namespace Memo

open Request (texts arguments valueKeys charge opening readings rereads)

def handle {σ : Type} [Cache σ] (m : Memo σ) (r : Request) : Memo σ :=
  match r.argument with
  | none => (simplify r.polynomial m).2
  | some x => (evaluate r.polynomial x m).2

def handleAll {σ : Type} [Cache σ] (m : Memo σ) (rs : List Request) : Memo σ := rs.foldl handle m

structure Accounts (rs : List Request) (m : Memo Store) : Prop where
  coherent : m.cache.Coherent
  record : ∀ raw, (m.cache.record? raw).isSome ↔ raw ∈ texts rs
  value : ∀ raw x, (m.cache.value? raw x).isSome ↔
    Polynomial.IsAccepted raw ∧ x ∈ arguments rs raw
  parses : m.parses = ∑ raw ∈ texts rs, readings rs raw

variable {rs : List Request} {r : Request} {m m' : Memo Store} {raw argument : String}

lemma accounts_new (settings : Settings) : Accounts [] (Memo.new Store.empty settings) where
  coherent := Store.coherent_empty
  record raw := by simp [Memo.new, Store.empty, Store.record?, texts]
  value raw x := by simp [Memo.new, Store.empty, Store.value?, arguments]
  parses := rfl

lemma simplify_of_record {record : Record} (hrecord : m.cache.record? raw = some record) :
    (simplify raw m).2 = m := by
  cases record with
  | simplified text => rw [Direct.simplify_known hrecord]
  | failed f => rw [Direct.simplify_knownFailure hrecord]

lemma handle_of_not_isRecorded (hm : m.cache.Coherent) (h : ¬ r.IsRecorded) : m.handle r = m := by
  obtain ⟨x, hx, harg⟩ := Request.not_isRecorded_iff.mp h
  have hvalue : m.cache.value? r.polynomial x = none := by
    rw [Option.eq_none_iff_forall_ne_some]
    intro v hv
    obtain ⟨⟨y, -, hy, -⟩, -⟩ := hm.value hv
    rw [harg] at hy
    cases hy
  rw [handle, hx]
  dsimp only
  by_cases hfailed : ∃ f, m.cache.record? r.polynomial = some (.failed f)
  · obtain ⟨f, hrecord⟩ := hfailed
    rw [Direct.evaluate_knownFailure hvalue hrecord]
  · rw [Direct.evaluate_badArgument hvalue (not_exists.mp hfailed) harg]

namespace Accounts

lemma append (h : Accounts rs m) (hm' : m'.cache.Coherent)
    (hrecord : ∀ key, (m'.cache.record? key).isSome ↔
      (m.cache.record? key).isSome ∨ r.polynomial = key)
    (hvalue : ∀ key x, (m'.cache.value? key x).isSome ↔ (m.cache.value? key x).isSome ∨
      Polynomial.IsAccepted key ∧ r.polynomial = key ∧ r.argument = some x)
    (hparses : m'.parses = m.parses + charge rs r) : Accounts (rs ++ [r]) m' where
  coherent := hm'
  record key := by
    rw [hrecord, h.record, Request.texts_append, Finset.mem_insert, or_comm, eq_comm]
  value key x := by
    rw [hvalue, h.value, Request.mem_arguments_append, and_or_left]
  parses := by rw [hparses, h.parses, Request.sum_readings_append]

lemma append_known (h : Accounts rs m) (hmem : r.polynomial ∈ texts rs)
    (hknown : Polynomial.IsAccepted r.polynomial →
      ∀ x ∈ r.argument, x ∈ arguments rs r.polynomial) : Accounts (rs ++ [r]) m := by
  refine h.append h.coherent (fun key => ?_) (fun key x => ?_) ?_
  · refine (or_iff_left_of_imp ?_).symm
    rintro rfl
    exact (h.record _).mpr hmem
  · refine (or_iff_left_of_imp ?_).symm
    rintro ⟨hread, rfl, hx⟩
    exact (h.value _ _).mpr ⟨hread, hknown hread x hx⟩
  · rw [charge, if_neg (not_not.mpr hmem)]
    split_ifs with hnew
    · obtain ⟨x, hx, hx'⟩ := hnew
      rw [Request.rereads_eq_zero fun hread => hx' (hknown hread x hx), Nat.add_zero]
    · rfl

lemma append_record (h : Accounts rs m) (hnew : r.polynomial ∉ texts rs) {record : Record}
    (hm' : (m.cache.putRecord r.polynomial record).Coherent)
    (hnone : Polynomial.IsAccepted r.polynomial → r.argument = none) :
    Accounts (rs ++ [r]) { m with
      cache := m.cache.putRecord r.polynomial record, parses := m.parses + 1 } := by
  refine h.append hm' (fun key => Store.isSome_record?_putRecord record) (fun key x => ?_) ?_
  · rw [Store.value?_putRecord]
    refine (or_iff_left_of_imp ?_).symm
    rintro ⟨hread, rfl, hx⟩
    rw [hnone hread] at hx
    cases hx
  · rw [charge, if_pos hnew]

lemma not_mem_texts (h : Accounts rs m) (hrecord : m.cache.record? raw = none) :
    raw ∉ texts rs := by
  rw [← h.record, hrecord]
  exact Bool.false_ne_true

lemma mem_texts (h : Accounts rs m) {record : Record}
    (hrecord : m.cache.record? raw = some record) : raw ∈ texts rs := by
  rw [← h.record, hrecord]
  rfl

lemma simplify (h : Accounts rs m) (raw : String) :
    Accounts (rs ++ [⟨raw, none⟩]) (Memo.simplify raw m).2 := by
  have hm' := (Direct.simplify_sound h.coherent raw).1
  cases hrecord : m.cache.record? raw with
  | some record =>
    rw [simplify_of_record hrecord]
    exact h.append_known (h.mem_texts hrecord) nofun
  | none =>
    cases hread : Polynomial.read raw with
    | ok p =>
      rw [Direct.simplify_computed hrecord hread] at hm' ⊢
      exact h.append_record (h.not_mem_texts hrecord) hm' fun _ => rfl
    | error e =>
      obtain ⟨f, rfl, -⟩ := Polynomial.read_error hread
      rw [Direct.simplify_rejected hrecord hread] at hm' ⊢
      exact h.append_record (h.not_mem_texts hrecord) hm' fun _ => rfl

lemma append_value (h : Accounts rs m) (hm' : m'.cache.Coherent)
    (hread : Polynomial.IsAccepted raw)
    (hrecord : ∀ key, (m'.cache.record? key).isSome ↔
      (m.cache.record? key).isSome ∨ raw = key)
    (hvalue : ∀ key x, (m'.cache.value? key x).isSome ↔
      (m.cache.value? key x).isSome ∨ raw = key ∧ argument = x)
    (hparses : m'.parses = m.parses + charge rs ⟨raw, some argument⟩) :
    Accounts (rs ++ [⟨raw, some argument⟩]) m' := by
  refine h.append hm' hrecord (fun key x => ?_) hparses
  rw [hvalue, Option.some_inj]
  refine or_congr_right ⟨?_, And.right⟩
  rintro ⟨rfl, rfl⟩
  exact ⟨hread, rfl, rfl⟩

lemma evaluate_new (h : Accounts rs m) {x : Int64} (hx : Argument.read argument = .ok x)
    (hvalue : m.cache.value? raw argument = none) (hrecord : m.cache.record? raw = none) :
    Accounts (rs ++ [⟨raw, some argument⟩]) (Memo.evaluate raw argument m).2 := by
  have hm' := Direct.evaluate_coherent h.coherent raw argument
  have hnew := h.not_mem_texts hrecord
  cases hread : Polynomial.read raw with
  | ok p =>
    rw [Direct.evaluate_computed hvalue hrecord hx hread] at hm' ⊢
    refine h.append_value hm' ⟨p, hread⟩ (fun key => ?_) (fun key y => ?_) ?_
    · rw [Store.isSome_record?_putValue, Store.isSome_record?_putRecord, or_assoc, or_self]
    · rw [Store.isSome_value?_putValue, Store.value?_putRecord]
    · rw [charge, if_pos hnew]
  | error e =>
    obtain ⟨f, rfl, -⟩ := Polynomial.read_error hread
    rw [Direct.evaluate_rejected hvalue hrecord hx hread] at hm' ⊢
    refine h.append_record hnew hm' ?_
    rintro ⟨p, hp⟩
    rw [hread] at hp
    cases hp

lemma evaluate_stored (h : Accounts rs m) {x : Int64} (hx : Argument.read argument = .ok x)
    (hvalue : m.cache.value? raw argument = none) {text : String}
    (hrecord : m.cache.record? raw = some (.simplified text)) :
    Accounts (rs ++ [⟨raw, some argument⟩]) (Memo.evaluate raw argument m).2 := by
  obtain ⟨p, hread, rfl⟩ := h.coherent.simplified hrecord
  have hm' := Direct.evaluate_coherent h.coherent raw argument
  have hnew : argument ∉ arguments rs raw := by
    intro hmem
    have hsome := (h.value raw argument).mpr ⟨⟨p, hread⟩, hmem⟩
    rw [hvalue] at hsome
    exact Bool.false_ne_true hsome
  rw [Direct.evaluate_rebuilt hvalue hrecord hx (rebuilt_render hread)] at hm' ⊢
  refine h.append_value hm' ⟨p, hread⟩ (fun key => Store.isSome_record?_putValue _ _)
    (fun key y => Store.isSome_value?_putValue _ _) ?_
  rw [charge, if_neg (not_not.mpr (h.mem_texts hrecord)), if_pos ⟨argument, rfl, hnew⟩, rereads,
    hread, rebuildParses_render]

lemma evaluate (h : Accounts rs m) (raw : String) (harg : Argument.IsAccepted argument) :
    Accounts (rs ++ [⟨raw, some argument⟩]) (Memo.evaluate raw argument m).2 := by
  obtain ⟨x, hx⟩ := harg
  cases hvalue : m.cache.value? raw argument with
  | some v =>
    rw [Direct.evaluate_known hvalue]
    have hmem := ((h.value raw argument).mp (by rw [hvalue]; rfl)).2
    refine h.append_known (Request.mem_texts_of_mem_arguments hmem) ?_
    rintro - _ ⟨⟩
    exact hmem
  | none =>
    cases hrecord : m.cache.record? raw with
    | none => exact h.evaluate_new hx hvalue hrecord
    | some record =>
      cases record with
      | simplified text => exact h.evaluate_stored hx hvalue hrecord
      | failed f =>
        rw [Direct.evaluate_knownFailure hvalue hrecord]
        refine h.append_known (h.mem_texts hrecord) ?_
        rintro ⟨p, hp⟩
        rw [h.coherent.failed hrecord] at hp
        cases hp

lemma handle (h : Accounts rs m) (hr : r.IsRecorded) : Accounts (rs ++ [r]) (m.handle r) := by
  obtain ⟨raw, argument⟩ := r
  cases argument with
  | none => exact h.simplify raw
  | some x => exact h.evaluate raw (hr x rfl)

lemma records_size (h : Accounts rs m) : m.cache.records.size = (texts rs).card :=
  size_eq_card h.record

lemma values_size (h : Accounts rs m) : m.cache.values.size =
    ∑ raw ∈ (texts rs).filter Polynomial.IsAccepted, (arguments rs raw).card := by
  have hkeys : ∀ key : String × String, m.cache.values[key]?.isSome ↔
      key ∈ ((texts rs).filter Polynomial.IsAccepted).biUnion (valueKeys rs) := by
    rintro ⟨raw, x⟩
    refine (h.value raw x).trans ?_
    simp only [Finset.mem_biUnion, Finset.mem_filter, Request.mem_valueKeys]
    constructor
    · rintro ⟨hread, hx⟩
      exact ⟨raw, ⟨Request.mem_texts_of_mem_arguments hx, hread⟩, rfl, hx⟩
    · rintro ⟨_, ⟨-, hread⟩, rfl, hx⟩
      exact ⟨hread, hx⟩
  rw [size_eq_card hkeys, Finset.card_biUnion (Request.pairwiseDisjoint_valueKeys rs _)]
  exact Finset.sum_congr rfl fun raw _ => Finset.card_map _

lemma parses_eq (h : Accounts rs m) : m.parses = (texts rs).card +
    ∑ raw ∈ (texts rs).filter Polynomial.IsAccepted,
      rereads raw * ((arguments rs raw).card - opening rs raw) := by
  have hrejected : ∀ raw ∈ texts rs,
      rereads raw * ((arguments rs raw).card - opening rs raw) ≠ 0 →
        Polynomial.IsAccepted raw := by
    intro raw _ hne
    by_contra hread
    exact hne (by rw [Request.rereads_eq_zero hread, Nat.zero_mul])
  -- a rejected text is read once, when it is recorded, so its term is zero
  rw [h.parses, Finset.sum_filter_of_ne hrejected, Finset.card_eq_sum_ones,
    ← Finset.sum_add_distrib]
  rfl

end Accounts

theorem accounts_handleAll (settings : Settings) (rs : List Request) :
    Accounts (rs.filter (·.IsRecorded)) ((Memo.new Store.empty settings).handleAll rs) := by
  -- from the end of the list, for the last request meets what the others have left
  induction rs using List.reverseRecOn with
  | nil => exact accounts_new settings
  | append_singleton rs r ih =>
    rw [handleAll, List.foldl_concat, ← handleAll, List.filter_append]
    by_cases hr : r.IsRecorded
    · rw [List.filter_singleton, decide_eq_true hr]
      exact ih.handle hr
    · rw [handle_of_not_isRecorded ih.coherent hr, List.filter_singleton, decide_eq_false hr]
      simpa using ih

/-- How much is stored and how often polynomials were read, from the recorded requests alone. A text
that is recorded is not read again to simplify it. -/
theorem accounts_after_new (settings : Settings) (rs : List Request) :
    let m := (Memo.new Store.empty settings).handleAll rs
    let recorded := rs.filter (·.IsRecorded)
    let accepted := (texts recorded).filter Polynomial.IsAccepted
    m.cache.records.size = (texts recorded).card ∧
    m.cache.values.size = ∑ raw ∈ accepted, (arguments recorded raw).card ∧
    m.parses = (texts recorded).card +
      ∑ raw ∈ accepted, rereads raw * ((arguments recorded raw).card - opening recorded raw) ∧
    (∀ raw, opening recorded raw ≤ (arguments recorded raw).card) ∧
    ∀ raw ∈ texts recorded, (simplify raw m).2 = m := by
  intro m recorded accepted
  have h : Accounts recorded m := accounts_handleAll settings rs
  refine ⟨h.records_size, h.values_size, h.parses_eq, Request.opening_le recorded, ?_⟩
  intro raw hraw
  obtain ⟨record, hrecord⟩ := Option.isSome_iff_exists.mp ((h.record raw).mpr hraw)
  exact simplify_of_record hrecord

end Memo

end Polycalc
