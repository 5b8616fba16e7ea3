import Polycalc.Proofs.Json.Request
import Polycalc.Proofs.Memo.Accounts
import Polycalc.Proofs.Memo.History

namespace Polycalc

def Request.IsRefused (r : Request) : Prop := ¬ Polynomial.IsAccepted r.polynomial ∧ ¬ r.IsRecorded

def Response.ofOutcome {α : Type} (f : α → Response) : Except Error α → Response
  | .ok a => f a
  | .error e => .ofError e

def Request.response (r : Request) : Response :=
  match r.argument with
  | none => .ofOutcome .polynomial (Answer.simplified r.polynomial)
  | some argument =>
    .ofOutcome .value do
      let x ← Argument.read argument
      (·.evaluate x) <$> Polynomial.read r.polynomial

lemma Polynomial.exists_read_error {raw : String} (h : ¬ IsAccepted raw) :
    ∃ f, read raw = .error (.polynomial f raw) ∧ f.kind ≠ .unsupportedArgument := by
  cases hread : read raw with
  | ok p => exact absurd ⟨p, hread⟩ h
  | error e =>
    obtain ⟨f, rfl, hkind⟩ := read_error hread
    exact ⟨f, rfl, hkind⟩

lemma Failure.code_ne_two {f : Failure} (h : f.kind ≠ .unsupportedArgument) : f.code ≠ 2 := by
  intro hcode
  have hkind : Kind.ofCode? f.code = some f.kind := Kind.ofCode?_code f.kind
  rw [hcode] at hkind
  exact h (Option.some.inj hkind).symm

lemma Response.exists_malformed (reason : Option String) :
    ∃ message, malformed reason = .error 400 message := by cases reason <;> exact ⟨_, rfl⟩

namespace Memo

def replies [Diagnosis] (m : Memo Store) (lines : List String) : List (Option Response) :=
  (lines.mapM answerLine m).1

section Run

variable {σ : Type} {m : Memo σ}

lemma respond_fst {α : Type} (act : Action σ α) (f : α → Response) (m : Memo σ) :
    (respond act f m).1 = .ofOutcome f (act m).1 := by
  change (StateT.bind act.run _ m).1 = _
  rw [StateT.bind, ExceptT.run]
  rcases act m with ⟨e | a, m'⟩ <;> rfl

variable [Cache σ]

lemma answer_snd (r : Request) (m : Memo σ) : (answer r m).2 = m.handle r := by
  rw [answer, handle]
  cases r.argument <;> exact respond_snd _ _ m

variable [Diagnosis]

lemma answerLine_of_isDecoded {line : String} {r : Request} (h : r.IsDecoded line) :
    answerLine line m = (some (answer r m).1, m.handle r) := by
  rw [answerLine, if_neg h.not_isBlankLine, Request.read?_eq_some_iff.mpr h, ← answer_snd]
  rfl

lemma answerLine_of_none {line : String} (h : Request.read? line = none) :
    answerLine line m =
      (if IsBlankLine line then none else some (.malformed (Diagnosis.reason? line)), m) := by
  rw [answerLine, h]
  split_ifs <;> rfl

lemma answerLine_snd (line : String) (m : Memo σ) :
    (answerLine line m).2 = m.handleAll (Request.read? line).toList := by
  cases h : Request.read? line with
  | none =>
    rw [answerLine_of_none h]
    rfl
  | some r =>
    rw [answerLine_of_isDecoded (Request.read?_eq_some_iff.mp h)]
    rfl

end Run

lemma mapM_cons_fst {σ α β : Type} (f : α → StateM σ β) (a : α) (as : List α) (s : σ) :
    ((a :: as).mapM f s).1 = (f a s).1 :: (as.mapM f (f a s).2).1 := by
  rw [List.mapM_cons]
  rfl

lemma replies_cons [Diagnosis] (m : Memo Store) (line : String) (lines : List String) :
    m.replies (line :: lines) = (answerLine line m).1 :: (answerLine line m).2.replies lines := by
  rw [replies, mapM_cons_fst, replies]

theorem getElem?_replies [Diagnosis] (before : List String) (line : String) (after : List String) :
    ∀ m : Memo Store, (m.replies (before ++ line :: after))[before.length]? =
      some (answerLine line (m.handleAll (before.filterMap Request.read?))).1 := by
  induction before with
  | nil =>
    intro m
    rw [List.nil_append, replies_cons, List.length_nil, List.getElem?_cons_zero]
    rfl
  | cons first before ih =>
    intro m
    rw [List.cons_append, replies_cons, List.length_cons, List.getElem?_cons_succ, ih,
      answerLine_snd, List.filterMap_cons]
    cases Request.read? first <;> rfl

lemma isSome_record?_handleAll (settings : Settings) (before : List String) (raw : String) :
    (((Memo.new Store.empty settings).handleAll
      (before.filterMap Request.read?)).cache.record? raw).isSome ↔
      ∃ line ∈ before, ∃ r, Request.IsDecoded r line ∧ r.IsRecorded ∧ r.polynomial = raw := by
  rw [(accounts_handleAll settings _).record, Request.mem_texts]
  simp only [List.mem_filter, List.mem_filterMap, decide_eq_true_eq, Request.read?_eq_some_iff]
  constructor
  · rintro ⟨r, ⟨⟨line, hline, hr⟩, hrecorded⟩, hraw⟩
    exact ⟨line, hline, r, hr, hrecorded, hraw⟩
  · rintro ⟨line, hline, r, hr, hrecorded, hraw⟩
    exact ⟨r, ⟨⟨line, hline, hr⟩, hrecorded⟩, hraw⟩

section Coherent

variable {m : Memo Store} (hm : m.cache.Coherent) {r : Request} {line : String}

include hm

lemma answer_of_not_isRefused (h : ¬ r.IsRefused) : (answer r m).1 = r.response := by
  obtain ⟨raw, argument⟩ := r
  cases argument with
  | none =>
    rw [answer, Request.response]
    dsimp only
    rw [respond_fst, (Direct.simplify_sound hm raw).2]
  | some argument =>
    rw [answer, Request.response]
    dsimp only
    rw [respond_fst]
    cases hx : Argument.read argument with
    | ok x =>
      rw [Direct.evaluate_answer hm raw hx]
      rfl
    | error e =>
      obtain rfl := Argument.read_error hx
      have hrejected : ¬ Request.IsRecorded ⟨raw, some argument⟩ :=
        Request.not_isRecorded_iff.mpr ⟨argument, rfl, hx⟩
      obtain ⟨p, hp⟩ := not_not.mp fun hraw => h ⟨hraw, hrejected⟩
      rw [Direct.evaluate_answer_of_error hm raw hx, refusal_of_ok hm hp]
      rfl

lemma answer_of_isRefused (h : r.IsRefused) {e : Error}
    (he : Polynomial.read r.polynomial = .error e) :
    (answer r m).1 = if (m.cache.record? r.polynomial).isSome then .ofError e
      else .error 2 (Failure.plain .unsupportedArgument).message := by
  obtain ⟨x, hx, harg⟩ := Request.not_isRecorded_iff.mp h.2
  rw [answer, hx]
  dsimp only
  rw [respond_fst, Direct.evaluate_answer_of_error hm r.polynomial harg, refusal_of_error hm he]
  split_ifs <;> rfl

variable [Diagnosis]

lemma answerLine_congr {m' : Memo Store} (hm' : m'.cache.Coherent)
    (h : ∀ r, Request.IsDecoded r line → ¬ r.IsRefused) :
    (answerLine line m).1 = (answerLine line m').1 := by
  cases hread : Request.read? line with
  | none => rw [answerLine_of_none hread, answerLine_of_none hread]
  | some r =>
    have hr := Request.read?_eq_some_iff.mp hread
    have hrefused := h r hr
    rw [answerLine_of_isDecoded hr, answerLine_of_isDecoded hr, answer_of_not_isRefused hm hrefused,
      answer_of_not_isRefused hm' hrefused]

lemma answerLine_of_isRefused (hr : r.IsDecoded line) (h : r.IsRefused) {f : Failure}
    (hf : Polynomial.read r.polynomial = .error (.polynomial f r.polynomial)) :
    (answerLine line m).1 = some (if (m.cache.record? r.polynomial).isSome
      then .error f.code f.message
      else .error 2 (Failure.plain .unsupportedArgument).message) := by
  rw [answerLine_of_isDecoded hr, answer_of_isRefused hm h hf]
  rfl

end Coherent

/-- The other lines do not matter, unless a line asks for a value of a rejected polynomial at what is
no argument. Then the polynomial is what is rejected if an earlier line left a record of it, and
otherwise the argument is. -/
theorem reply_among_lines [Diagnosis] (settings : Settings) (before : List String) (line : String)
    (after : List String) :
    let fresh := Memo.new Store.empty settings
    let alone := (answerLine line fresh).1
    let reply := (fresh.replies (before ++ line :: after))[before.length]?
    ((∀ r, Request.IsDecoded r line → ¬ r.IsRefused) → reply = some alone) ∧
    ∀ r, Request.IsDecoded r line → r.IsRefused →
      let badArgument := Response.error 2 (Failure.plain .unsupportedArgument).message
      let recorded := ∃ earlier ∈ before, ∃ r', Request.IsDecoded r' earlier ∧
        r'.IsRecorded ∧ r'.polynomial = r.polynomial
      alone = some badArgument ∧
      ∃ f, Polynomial.read r.polynomial = .error (.polynomial f r.polynomial) ∧ f.code ≠ 2 ∧
        (reply = some (some (.error f.code f.message)) ↔ recorded) ∧
        (¬ recorded → reply = some (some badArgument)) := by
  intro fresh alone reply
  let m := fresh.handleAll (before.filterMap Request.read?)
  have hreply : reply = some (answerLine line m).1 := getElem?_replies before line after fresh
  have hfresh : fresh.cache.Coherent := Store.coherent_empty
  have hm : m.cache.Coherent := (accounts_handleAll settings _).coherent
  constructor
  · intro h
    rw [hreply, answerLine_congr hm hfresh h]
  intro r hr hrefused badArgument recorded
  obtain ⟨f, hread, hkind⟩ := Polynomial.exists_read_error hrefused.1
  have hcode := Failure.code_ne_two hkind
  have hrecorded : (m.cache.record? r.polynomial).isSome ↔ recorded :=
    isSome_record?_handleAll settings before r.polynomial
  have hnone : ¬ (fresh.cache.record? r.polynomial).isSome := by
    simp [fresh, Memo.new, Store.empty, Store.record?]
  rw [answerLine_of_isRefused hm hr hrefused hread] at hreply
  refine ⟨?_, f, hread, hcode, ?_⟩
  · simp only [alone, answerLine_of_isRefused hfresh hr hrefused hread, if_neg hnone, badArgument]
  by_cases h : recorded
  · rw [if_pos (hrecorded.mpr h)] at hreply
    exact ⟨iff_of_true hreply h, absurd h⟩
  · rw [if_neg (mt hrecorded.mp h)] at hreply
    refine ⟨iff_of_false ?_ h, fun _ => hreply⟩
    rw [hreply]
    -- no polynomial is rejected with the code of an argument
    simp only [Option.some.injEq, Response.error.injEq]
    exact fun hsame => hcode hsame.1.symm

theorem reply_among_lines_after_rejection :
    let fresh := Memo.new Store.empty .default
    let simplify := "\x7b\"polynomial\":\"2x\"\x7d"
    let evaluate := "\x7b\"polynomial\":\"2x\",\"x\":\"a\"\x7d"
    (Request.IsDecoded ⟨"2x", none⟩ simplify ∧ Request.IsDecoded ⟨"2x", some "a"⟩ evaluate ∧
      Request.IsRefused ⟨"2x", some "a"⟩) ∧
    (answerLine evaluate fresh).1 =
      some (.error 2 (Failure.plain .unsupportedArgument).message) ∧
    (fresh.replies [simplify, evaluate])[1]? =
      some (some (.error 4 (Failure.about .misplacedTimes ['+', '2', 'x']).message)) ∧
    (fresh.replies [simplify, evaluate])[0]? = some (answerLine simplify fresh).1 := by
  intro fresh simplify evaluate
  have hsimplify : Request.IsDecoded ⟨"2x", none⟩ simplify := Request.isDecoded_write ⟨"2x", none⟩
  have hevaluate : Request.IsDecoded ⟨"2x", some "a"⟩ evaluate :=
    Request.isDecoded_write ⟨"2x", some "a"⟩
  have hread : Polynomial.read "2x" =
      .error (.polynomial (.about .misplacedTimes ['+', '2', 'x']) "2x") := by rfl
  have hrejected : ¬ Polynomial.IsAccepted "2x" := by
    rintro ⟨p, hp⟩
    rw [hread] at hp
    cases hp
  have hrefused : Request.IsRefused ⟨"2x", some "a"⟩ := ⟨hrejected, by decide⟩
  obtain ⟨halone, f, hf, -, hiff, -⟩ :=
    (reply_among_lines .default [simplify] evaluate []).2 _ hevaluate hrefused
  have hrecorded : Request.IsRecorded ⟨"2x", none⟩ := by decide
  have hfirst := (reply_among_lines .default [] simplify [evaluate]).1 fun r hr h => by
    obtain rfl := hr.unique hsimplify
    exact h.2 hrecorded
  refine ⟨⟨hsimplify, hevaluate, hrefused⟩, halone, ?_, hfirst⟩
  rw [hread] at hf
  cases hf
  exact hiff.mpr ⟨simplify, List.mem_singleton_self _, _, hsimplify, hrecorded, rfl⟩

/-- A line that is no request changes nothing at all, and among the calls of the cache there are
none on its behalf. -/
theorem lines_decoded_or_inert {σ : Type} [Cache σ] [Diagnosis] (m : Memo (Faulty σ)) :
    (∀ r : Request, answerLine r.write m = (some (answer r m).1, (answer r m).2)) ∧
    ∀ line,
      (∀ r, Request.IsDecoded r line → answerLine line m = (some (answer r m).1, (answer r m).2)) ∧
      ((∀ c ∈ line.toList, Text.isBlank c) → answerLine line m = (none, m)) ∧
      ((∃ c ∈ line.toList, ¬ Text.isBlank c) → (∀ r, ¬ Request.IsDecoded r line) →
        ∃ message, answerLine line m = (some (.error 400 message), m)) := by
  have hanswered : ∀ line r, Request.IsDecoded r line →
      answerLine line m = (some (answer r m).1, (answer r m).2) := by
    intro line r h
    rw [answerLine_of_isDecoded h, answer_snd]
  refine ⟨fun r => hanswered _ r r.isDecoded_write, fun line => ⟨hanswered line, ?_, ?_⟩⟩
  · intro hblank
    change IsBlankLine line at hblank
    rw [answerLine, if_pos hblank]
    rfl
  · intro hvisible h
    have hnone : Request.read? line = none :=
      Option.eq_none_iff_forall_ne_some.mpr fun r hr => h r (Request.read?_eq_some_iff.mp hr)
    have hblank : ¬ IsBlankLine line := by
      rw [IsBlankLine]
      push Not
      exact hvisible
    obtain ⟨message, hmessage⟩ := Response.exists_malformed (Diagnosis.reason? line)
    refine ⟨message, ?_⟩
    rw [answerLine_of_none hnone, if_neg hblank, hmessage]

end Memo

end Polycalc
