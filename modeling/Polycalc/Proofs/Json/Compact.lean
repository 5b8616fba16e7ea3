import Polycalc.Json.Value
import Polycalc.Proofs.Json.Quoted

/-! Compact text is read back: a text is cut into tokens wherever it stands, and tokens are put
together to a value within twice as many steps. Both are passed on from parts to the whole. -/

namespace Polycalc.Json

def IsCutInto (w : List Char) (ts : List Token) : Prop :=
  ∀ rest, Token.ofText? (w ++ rest) = (ts ++ ·) <$> Token.ofText? rest

namespace IsCutInto

lemma append {v w : List Char} {ts us : List Token} (hv : IsCutInto v ts) (hw : IsCutInto w us) :
    IsCutInto (v ++ w) (ts ++ us) := by
  intro rest
  rw [List.append_assoc, hv, hw]
  cases Token.ofText? rest <;> simp

lemma of_next? {c : Char} {w : List Char} {t : Token} (hc : Token.isSpace c = false)
    (h : ∀ rest, Token.next? (c :: (w ++ rest)) = some (t, rest)) : IsCutInto (c :: w) [t] := by
  intro rest
  exact Token.ofText?_cons hc (h rest)

lemma writeString (s : String) : IsCutInto (writeString s) [.string (some s)] := by
  apply of_next? (by decide)
  intro rest
  have h := Token.next?_encode s.toList rest
  rwa [String.ofList_toList] at h

lemma openArray : IsCutInto ['['] [.openArray] := of_next? (by decide) fun _ => rfl

lemma closeArray : IsCutInto [']'] [.closeArray] := of_next? (by decide) fun _ => rfl

lemma openObject : IsCutInto ['\x7b'] [.openObject] := of_next? (by decide) fun _ => rfl

lemma closeObject : IsCutInto ['\x7d'] [.closeObject] := of_next? (by decide) fun _ => rfl

lemma comma : IsCutInto [','] [.comma] := of_next? (by decide) fun _ => rfl

lemma colon : IsCutInto [':'] [.colon] := of_next? (by decide) fun _ => rfl

lemma ofText?_eq {w : List Char} {ts : List Token} (h : IsCutInto w ts) :
    Token.ofText? w = some ts := by
  have hw := h []
  rw [List.append_nil] at hw
  rw [hw, Token.ofText?]
  simp

end IsCutInto

def IsReadAs (ts : List Token) (v : Value) : Prop :=
  ∀ n r, 2 * ts.length ≤ n → Value.next? n (ts ++ r) = some (v, r)

def IsWritten (w : List Char) (v : Value) : Prop := ∃ ts, IsCutInto w ts ∧ IsReadAs ts v

lemma IsWritten.ofText?_eq {w : List Char} {v : Value} (h : IsWritten w v) :
    Value.ofText? w = some v := by
  obtain ⟨ts, hw, hts⟩ := h
  have hread := hts (2 * ts.length) [] (Nat.le_refl _)
  rw [List.append_nil] at hread
  rw [Value.ofText?, hw.ofText?_eq, Option.bind_eq_bind, Option.bind_some, Value.ofTokens?, hread]

lemma IsWritten.read {α : Type} {w : List Char} {v : Value} {f : Value → Option α} {a : α}
    (h : IsWritten w v) (hf : f v = some a) :
    (Value.ofText? (String.ofList w).toList >>= f) = some a := by
  rw [String.toList_ofList, h.ofText?_eq]
  exact hf

lemma isWritten_writeString (s : String) : IsWritten (writeString s) (.string (some s)) := by
  refine ⟨_, .writeString s, ?_⟩
  intro n r hn
  cases n with
  | zero => simp at hn
  | succ n => rfl

lemma Value.elements?_closeArray (n : ℕ) (ts : List Token) :
    elements? n (.closeArray :: ts) = none := by
  cases n with
  | zero => rfl
  | succ n => cases n <;> rfl

namespace IsReadAs

variable {ts us : List Token} {v : Value} {n : ℕ} {r : List Token}

lemma elements?_last (h : IsReadAs ts v) (hn : 2 * ts.length < n) :
    Value.elements? n (ts ++ .closeArray :: r) = some ([v], r) := by
  cases n with
  | zero => omega
  | succ n =>
    rw [Value.elements?, h n _ (by omega)]
    rfl

lemma elements?_comma (h : IsReadAs ts v) {vs : List Value} (hn : 2 * ts.length ≤ n)
    (hrest : Value.elements? n us = some (vs, r)) :
    Value.elements? (n + 1) (ts ++ .comma :: us) = some (v :: vs, r) := by
  simp [Value.elements?, h n _ hn, hrest]

lemma members?_last (h : IsReadAs ts v) {key : Option String} (hn : 2 * ts.length < n) :
    Value.members? n (.string key :: .colon :: (ts ++ .closeObject :: r)) =
      some ([(key, v)], r) := by
  cases n with
  | zero => omega
  | succ n =>
    rw [Value.members?, h n _ (by omega)]
    rfl

lemma members?_comma (h : IsReadAs ts v) {key : Option String} {ms : List (Option String × Value)}
    (hn : 2 * ts.length ≤ n) (hrest : Value.members? n us = some (ms, r)) :
    Value.members? (n + 1) (.string key :: .colon :: (ts ++ .comma :: us)) =
      some ((key, v) :: ms, r) := by
  simp [Value.members?, h n _ hn, hrest]

end IsReadAs

lemma elements?_of_isWritten {ws : List (List Char)} {vs : List Value}
    (h : List.Forall₂ IsWritten ws vs) (hne : ws ≠ []) :
    ∃ ts, IsCutInto (separated ws) ts ∧
      ∀ n r, 2 * ts.length < n → Value.elements? n (ts ++ .closeArray :: r) = some (vs, r) := by
  induction h with
  | nil => exact absurd rfl hne
  | @cons w v ws vs hw hws ih =>
    obtain ⟨ts, hcut, hread⟩ := hw
    cases hws with
    | nil => exact ⟨ts, hcut, fun n r hn => hread.elements?_last hn⟩
    | cons hw' hws' =>
      obtain ⟨us, hcuts, hreads⟩ := ih (List.cons_ne_nil _ _)
      refine ⟨_, hcut.append (IsCutInto.comma.append hcuts), ?_⟩
      intro n r hn
      simp only [List.length_append, List.length_cons] at hn
      cases n with
      | zero => omega
      | succ n =>
        have hrest := hreads n r (by omega)
        simpa using hread.elements?_comma (by omega) hrest

def IsWrittenMember (m : String × List Char) (m' : Option String × Value) : Prop :=
  m'.1 = some m.1 ∧ IsWritten m.2 m'.2

def writeMember (m : String × List Char) : List Char := writeString m.1 ++ ':' :: m.2

lemma members?_of_isWritten {ms : List (String × List Char)} {ms' : List (Option String × Value)}
    (h : List.Forall₂ IsWrittenMember ms ms') (hne : ms ≠ []) :
    ∃ key ts, IsCutInto (separated (ms.map writeMember)) (.string key :: ts) ∧
      ∀ n r, 2 * ts.length < n →
        Value.members? n (.string key :: ts ++ .closeObject :: r) = some (ms', r) := by
  induction h with
  | nil => exact absurd rfl hne
  | @cons m m' ms ms' hm hms ih =>
    obtain ⟨key, w⟩ := m
    obtain ⟨_, v⟩ := m'
    obtain ⟨rfl, ts, hcut, hread⟩ := hm
    have hmember : IsCutInto (writeMember (key, w)) (.string (some key) :: .colon :: ts) :=
      (IsCutInto.writeString key).append (IsCutInto.colon.append hcut)
    cases hms with
    | nil =>
      refine ⟨some key, .colon :: ts, hmember, ?_⟩
      intro n r hn
      rw [List.length_cons] at hn
      exact hread.members?_last (by omega)
    | cons hm' hms' =>
      obtain ⟨key', us, hcuts, hreads⟩ := ih (List.cons_ne_nil _ _)
      refine ⟨some key, .colon :: ts ++ .comma :: .string key' :: us,
        hmember.append (IsCutInto.comma.append hcuts), ?_⟩
      intro n r hn
      simp only [List.length_append, List.length_cons] at hn
      cases n with
      | zero => omega
      | succ n =>
        have hrest := hreads n r (by omega)
        simpa using hread.members?_comma (by omega) hrest

theorem isWritten_writeArray {ws : List (List Char)} {vs : List Value}
    (h : List.Forall₂ IsWritten ws vs) : IsWritten (writeArray ws) (.array vs) := by
  by_cases hne : ws = []
  · subst hne
    cases h
    refine ⟨_, IsCutInto.openArray.append IsCutInto.closeArray, ?_⟩
    intro n r hn
    cases n with
    | zero => simp at hn
    | succ n => rfl
  · obtain ⟨ts, hcut, hread⟩ := elements?_of_isWritten h hne
    refine ⟨_, IsCutInto.openArray.append (hcut.append IsCutInto.closeArray), ?_⟩
    intro n r hn
    simp only [List.length_append, List.length_cons, List.length_nil] at hn
    cases n with
    | zero => omega
    | succ n =>
      have helements := hread n r (by omega)
      -- An array that is closed at once is read without looking for elements.
      have hopen : ∀ us, ts ++ .closeArray :: r ≠ .closeArray :: us := by
        intro us heq
        rw [heq, Value.elements?_closeArray] at helements
        cases helements
      simp only [List.cons_append, List.nil_append, List.append_assoc]
      rw [Value.next?, helements]
      · rfl
      · exact hopen

theorem isWritten_writeObject {ms : List (String × List Char)}
    {ms' : List (Option String × Value)} (h : List.Forall₂ IsWrittenMember ms ms') :
    IsWritten (writeObject ms) (.object ms') := by
  by_cases hne : ms = []
  · subst hne
    cases h
    refine ⟨_, IsCutInto.openObject.append IsCutInto.closeObject, ?_⟩
    intro n r hn
    cases n with
    | zero => simp at hn
    | succ n => rfl
  · obtain ⟨key, ts, hcut, hread⟩ := members?_of_isWritten h hne
    refine ⟨_, IsCutInto.openObject.append (hcut.append IsCutInto.closeObject), ?_⟩
    intro n r hn
    simp only [List.length_append, List.length_cons, List.length_nil] at hn
    cases n with
    | zero => omega
    | succ n =>
      have hmembers := hread n r (by omega)
      simp only [List.cons_append, List.nil_append, List.append_assoc] at hmembers ⊢
      rw [Value.next?, hmembers]
      · rfl
      · nofun

lemma isPrintable_writeString (s : String) : IsPrintable (writeString s) :=
  Quoted.isPrintable_encode s.toList

lemma isPrintable_separated {ws : List (List Char)} (h : ∀ w ∈ ws, IsPrintable w) :
    IsPrintable (separated ws) := by
  fun_induction separated ws with
  | case1 => nofun
  | case2 w => exact h w List.mem_cons_self
  | case3 w ws _ ih =>
    obtain ⟨hw, hws⟩ := List.forall_mem_cons.mp h
    exact isPrintable_append hw (isPrintable_cons (by decide) (ih hws))

lemma isPrintable_writeArray {ws : List (List Char)} (h : ∀ w ∈ ws, IsPrintable w) :
    IsPrintable (writeArray ws) :=
  isPrintable_enclosed (by decide) (isPrintable_separated h) (by decide)

lemma isPrintable_writeObject {ms : List (String × List Char)} (h : ∀ m ∈ ms, IsPrintable m.2) :
    IsPrintable (writeObject ms) := by
  apply isPrintable_enclosed (by decide) (isPrintable_separated _) (by decide)
  intro w hw
  obtain ⟨m, hm, rfl⟩ := List.mem_map.mp hw
  exact isPrintable_append (isPrintable_writeString m.1) (isPrintable_cons (by decide) (h m hm))

end Polycalc.Json
