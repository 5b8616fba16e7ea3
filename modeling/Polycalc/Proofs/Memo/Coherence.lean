import Polycalc.Proofs.Answer
import Polycalc.Proofs.Collect
import Polycalc.Proofs.Memo.Attempt
import Polycalc.Proofs.RoundTrip

namespace Polycalc

def Record.Describes (raw : String) : Record → Prop
  | .simplified text => Answer.simplified raw = .ok text
  | .failed f => Polynomial.read raw = .error (.polynomial f raw)

lemma Record.describes_render {raw : String} {p : Polynomial} (h : Polynomial.read raw = .ok p) :
    Record.Describes raw (.simplified p.simplify.render) := Answer.simplified_of_read h

namespace Store

structure Coherent (t : Store) : Prop where
  record : ∀ {raw r}, t.record? raw = some r → r.Describes raw
  value : ∀ {raw argument v}, t.value? raw argument = some v →
    (∃ x p, Argument.read argument = .ok x ∧ Polynomial.read raw = .ok p ∧ p.evaluate x = v) ∧
      (t.record? raw).isSome

lemma record?_link_cases {t : Store} {raw key : String} {r r' : Record}
    (h : (t.link raw (some r)).record? key = some r') :
    t.record? key = some r' ∨ raw = key ∧ r = r' := by
  rw [record?_link] at h
  split_ifs at h with heq
  · cases hkey : t.record? key with
    | none =>
      rw [hkey] at h
      exact Or.inr ⟨heq, Option.some.inj h⟩
    | some r'' =>
      rw [hkey] at h
      exact Or.inl h
  · exact Or.inl h

lemma isSome_record?_link {t : Store} {raw key : String} (r : Record) :
    ((t.link raw (some r)).record? key).isSome ↔ (t.record? key).isSome ∨ raw = key := by
  rw [record?_link]
  split_ifs with h <;> cases t.record? key <;> simp [h]

lemma coherent_empty : empty.Coherent where
  record h := by simp [empty, record?] at h
  value h := by simp [empty, value?] at h

namespace Coherent

variable {t : Store} {raw argument text : String}

lemma simplified (h : t.Coherent) (hrecord : t.record? raw = some (.simplified text)) :
    ∃ p, Polynomial.read raw = .ok p ∧ p.simplify.render = text :=
  Answer.simplified_eq_ok_iff.mp (h.record hrecord)

lemma failed (h : t.Coherent) {f : Failure} (hrecord : t.record? raw = some (.failed f)) :
    Polynomial.read raw = .error (.polynomial f raw) := h.record hrecord

lemma putRecord (h : t.Coherent) {r : Record} (hr : r.Describes raw) :
    (t.putRecord raw r).Coherent where
  record {key r'} hkey := by
    rw [record?_putRecord] at hkey
    split_ifs at hkey with heq
    · subst heq
      obtain rfl := Option.some.inj hkey
      exact hr
    · exact h.record hkey
  value {key y v} hkey := by
    rw [value?_putRecord] at hkey
    obtain ⟨hv, hrecord⟩ := h.value hkey
    refine ⟨hv, ?_⟩
    rw [record?_putRecord]
    split_ifs
    · rfl
    · exact hrecord

lemma putValue (h : t.Coherent) {r : Record} (hr : r.Describes raw) {x : Int64} {p : Polynomial}
    (hx : Argument.read argument = .ok x) (hp : Polynomial.read raw = .ok p) :
    (t.putValue raw argument (p.evaluate x) (some r)).Coherent where
  record {key r'} hkey := by
    rw [record?_putValue] at hkey
    rcases record?_link_cases hkey with hkey | ⟨rfl, rfl⟩
    · exact h.record hkey
    · exact hr
  value {key y v} hkey := by
    rw [value?_putValue] at hkey
    rw [record?_putValue]
    split_ifs at hkey with heq
    · obtain ⟨rfl, rfl⟩ := heq
      obtain rfl := Option.some.inj hkey
      exact ⟨⟨x, p, hx, hp, rfl⟩, (isSome_record?_link r).mpr (Or.inr rfl)⟩
    · obtain ⟨hv, hrecord⟩ := h.value hkey
      exact ⟨hv, (isSome_record?_link r).mpr (Or.inl hrecord)⟩

end Coherent

end Store

namespace Memo

variable {raw argument : String} {s s' : Session} {t : Store}

theorem rebuilt_render {p : Polynomial} (hp : Polynomial.read raw = .ok p) :
    rebuilt raw p.simplify.render = .ok p.simplify := by
  rw [rebuilt]
  cases htext : Polynomial.readCanonical p.simplify.render with
  | ok q =>
    obtain rfl := Polynomial.eq_of_readCanonical_render htext
    rfl
  | error e =>
    -- the text is too long to be read, and the request is read again
    rw [hp]
    rfl

lemma Rejects.coherent {f : Failure} {t' : Store} (h : Rejects raw f t t') (ht : t.Coherent)
    (hread : Polynomial.read raw = .error (.polynomial f raw)) : t'.Coherent := by
  rcases h with rfl | rfl
  · exact ht
  · exact ht.putRecord hread

lemma SimplifyEnd.coherent {out : Except Error String} (h : SimplifyEnd raw s out t)
    (hs : s.cache.inner.Coherent) : t.Coherent := by
  cases h with
  | stopped | known | knownFailure => exact hs
  | rejected _ hread ht => exact ht.coherent hs hread
  | computed _ hread => exact hs.putRecord (Record.describes_render hread)

lemma EvaluateEnd.coherent {out : Except Error Int64} (h : EvaluateEnd raw argument s out t)
    (hs : s.cache.inner.Coherent) : t.Coherent := by
  cases h with
  | stopped | known | knownFailure | badArgument | unreadable => exact hs
  | rejected _ _ hread ht => exact ht.coherent hs hread
  | @rebuilt text x q hrecord hx hq =>
    obtain ⟨p, hread, rfl⟩ := hs.simplified hrecord
    obtain rfl := Except.ok.inj ((rebuilt_render hread).symm.trans hq)
    rw [Polynomial.evaluate_simplify]
    exact hs.putValue (Record.describes_render hread) hx hread
  | halted _ _ hread _ => exact hs.putRecord (Record.describes_render hread)
  | computed _ hx hread =>
    have htext := Record.describes_render hread
    rw [Polynomial.evaluate_simplify]
    exact (hs.putRecord htext).putValue htext hx hread

end Memo

end Polycalc
