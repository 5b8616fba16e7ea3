import Polycalc.Proofs.Memo.Observed

namespace Polycalc

structure Store.Grows (raw : String) (arguments : List String) (t t' : Store) : Prop where
  record : ∀ key r, t.record? key = some r → t'.record? key = some r
  value : ∀ key x v, t.value? key x = some v → t'.value? key x = some v
  newRecord : ∀ key, key ≠ raw → t'.record? key = t.record? key
  newValue : ∀ key x, ¬ (key = raw ∧ x ∈ arguments) → t'.value? key x = t.value? key x

namespace Store.Grows

variable {raw argument : String} {arguments : List String} {t t' t'' : Store}

lemma refl (t : Store) : Grows raw arguments t t :=
  ⟨fun _ _ h => h, fun _ _ _ h => h, fun _ _ => rfl, fun _ _ _ => rfl⟩

lemma trans (h : Grows raw arguments t t') (h' : Grows raw arguments t' t'') :
    Grows raw arguments t t'' where
  record key r hr := h'.record key r (h.record key r hr)
  value key x v hv := h'.value key x v (h.value key x v hv)
  newRecord key hkey := (h'.newRecord key hkey).trans (h.newRecord key hkey)
  newValue key x hx := (h'.newValue key x hx).trans (h.newValue key x hx)

lemma putRecord (h : t.record? raw = none) (r : Record) :
    Grows raw arguments t (t.putRecord raw r) where
  record key r' hr := by
    have hne : raw ≠ key := by
      rintro rfl
      simp [h] at hr
    rw [Store.record?_putRecord, if_neg hne, hr]
  value _ _ _ hv := hv
  newRecord key hkey := by rw [Store.record?_putRecord, if_neg hkey.symm]
  newValue _ _ _ := rfl

lemma putValue (h : t.value? raw argument = none) (hmem : argument ∈ arguments) (v : Int64)
    (linked : Option Record) : Grows raw arguments t (t.putValue raw argument v linked) where
  record key r hr := by
    -- The linked record is put only where there is none.
    rw [Store.record?_putValue, Store.record?_link, hr]
    simp
  value key x w hw := by
    have hne : ¬ (raw = key ∧ argument = x) := by
      rintro ⟨rfl, rfl⟩
      simp [h] at hw
    rw [Store.value?_putValue, if_neg hne, hw]
  newRecord key hkey := by rw [Store.record?_putValue, Store.record?_link, if_neg hkey.symm]
  newValue key x hx := by
    have hne : ¬ (raw = key ∧ argument = x) := by
      rintro ⟨rfl, rfl⟩
      exact hx ⟨rfl, hmem⟩
    rw [Store.value?_putValue, if_neg hne]

end Store.Grows

namespace Memo

variable {raw argument : String} {arguments : List String} {s s' : Session} {t t' : Store}

lemma Rejects.grows {f : Failure} (h : Rejects raw f t t') (hrecord : t.record? raw = none) :
    t.Grows raw arguments t' := by
  rcases h with rfl | rfl
  · exact .refl _
  · exact .putRecord hrecord _

lemma SimplifyEnd.grows {out : Except Error String} (h : SimplifyEnd raw s out t) :
    s.cache.inner.Grows raw [] t := by
  cases h with
  | stopped => exact .refl _
  | known => exact .refl _
  | knownFailure => exact .refl _
  | rejected hrecord _ ht => exact ht.grows hrecord
  | computed hrecord => exact .putRecord hrecord _

lemma EvaluateEnd.grows {out : Except Error Int64} (h : EvaluateEnd raw argument s out t)
    (hvalue : s.cache.inner.value? raw argument = none) :
    s.cache.inner.Grows raw [argument] t := by
  cases h with
  | stopped => exact .refl _
  | known => exact .refl _
  | knownFailure => exact .refl _
  | badArgument => exact .refl _
  | unreadable => exact .refl _
  | rebuilt => exact .putValue hvalue List.mem_cons_self _ _
  | rejected hrecord _ _ ht => exact ht.grows hrecord
  | halted hrecord => exact .putRecord hrecord _
  | @computed x p hrecord =>
    let t := s.cache.inner.putRecord raw (.simplified p.simplify.render)
    have hput : s.cache.inner.Grows raw [argument] t := .putRecord hrecord _
    have hvalue' : t.value? raw argument = none := hvalue
    exact hput.trans (.putValue hvalue' List.mem_cons_self _ _)

lemma simplifyOnce_grows {out : Except Error String} (h : simplifyOnce raw s = (out, s')) :
    s.cache.inner.Grows raw [] s'.cache.inner := by
  obtain ⟨t, hend, hr⟩ := simplifyOnce_cases h
  rw [hr.inner]
  exact hend.grows

lemma evaluateOnce_grows {out : Except Error Int64}
    (h : evaluateOnce raw argument s = (out, s')) :
    s.cache.inner.Grows raw [argument] s'.cache.inner := by
  cases hvalue : s.cache.inner.value? raw argument with
  | some v =>
    rw [(evaluateOnce_of_value hvalue h).2.inner]
    exact .refl _
  | none =>
    obtain ⟨t, hend, hr⟩ := evaluateOnce_cases h
    rw [hr.inner]
    exact hend.grows hvalue

lemma retry_grows {α : Type} {once : Action (Faulty Store) α}
    (h : ∀ s out s', once s = (out, s') → s.cache.inner.Grows raw arguments s'.cache.inner)
    {n : ℕ} {out : Except Error α} (hretry : retry once n s = (out, s')) :
    s.cache.inner.Grows raw arguments s'.cache.inner := by
  refine retry_cases (R := fun s _ s' => s.cache.inner.Grows raw arguments s'.cache.inner)
    h ?_ n hretry
  intro s r s₁ out s' hstopped hrest
  exact hstopped.trans hrest

lemma simplify_grows (raw : String) (s : Session) :
    s.cache.inner.Grows raw [] (simplify raw s).2.cache.inner := by
  have hretry : retry (simplifyOnce raw) s.settings.simplifyRetries s = simplify raw s := rfl
  exact retry_grows (fun _ _ _ h => simplifyOnce_grows h) hretry

lemma evaluate_grows (raw argument : String) (s : Session) :
    s.cache.inner.Grows raw [argument] (evaluate raw argument s).2.cache.inner := by
  have hretry : retry (evaluateOnce raw argument) s.settings.evaluateRetries s =
      evaluate raw argument s := rfl
  exact retry_grows (fun _ _ _ h => evaluateOnce_grows h) hretry

/-- Whatever is stored and whichever calls are stopped, a request changes no entry and adds at most
its own; and it stores nothing but what it has just asked for and been told to be absent. -/
theorem entries_written_once (s : Session) (raw argument : String) :
    s.cache.inner.Grows raw [] (simplify raw s).2.cache.inner ∧
    s.cache.inner.Grows raw [argument] (evaluate raw argument s).2.cache.inner ∧
    Noted (simplifyOnce raw) (simplify raw) (simplify raw) s ∧
    Noted (evaluateOnce raw argument) (evaluate raw argument) (evaluate raw argument) s :=
  ⟨simplify_grows raw s, evaluate_grows raw argument s, simplify_noted raw s,
    evaluate_noted raw argument s⟩

end Memo

end Polycalc
