import Polycalc.Proofs.Memo.Accounts

namespace Polycalc.Memo

variable {raw argument : String} {p : Polynomial}

lemma rebuild_render {σ : Type} (h : Polynomial.read raw = .ok p) (m : Memo σ) :
    rebuild raw p.simplify.render m = (.ok p.simplify, { m with
      parses := m.parses + if ∀ t ∈ p.simplify.terms, t.IsShort then 1 else 2 }) := by
  rw [rebuild_eq, rebuilt_render h, rebuildParses_render]

lemma evaluate_of_coherent {m : Memo Store} (hm : m.cache.Coherent)
    (h : Polynomial.read raw = .ok p) {x : Int64} (hx : Argument.read argument = .ok x) :
    (evaluate raw argument m).1 = .ok (p.evaluate x) := by
  rw [Direct.evaluate_answer hm raw hx, h]
  rfl

/-- A stored text gives back the polynomial it was made from, with a second reading only where it
has numbers of more than nine digits; so a value does not depend on what was asked before, be it
nothing, a simplification or a value at another argument. -/
theorem rebuild_restores_computed (h : Polynomial.read raw = .ok p) :
    (∀ (σ : Type) (_ : Cache σ) (m : Memo σ),
      compute raw m = (.ok p.simplify, { m with parses := m.parses + 1 }) ∧
      rebuild raw p.simplify.render m = (.ok p.simplify, { m with
        parses := m.parses + if ∀ t ∈ p.simplify.terms, t.IsShort then 1 else 2 })) ∧
    ∀ settings requests argument x, Argument.read argument = .ok x →
      let m := (new Store.empty settings).handleAll requests
      (evaluate raw argument m).1 = .ok (p.evaluate x) ∧
      (evaluate raw argument (simplify raw m).2).1 = .ok (p.evaluate x) ∧
      ∀ other, (evaluate raw argument (evaluate raw other m).2).1 = .ok (p.evaluate x) := by
  refine ⟨?_, ?_⟩
  · intro σ _ m
    exact ⟨compute_of_ok h, rebuild_render h m⟩
  · intro settings requests argument x hx m
    have hm : m.cache.Coherent := (accounts_handleAll settings requests).coherent
    refine ⟨evaluate_of_coherent hm h hx, ?_, ?_⟩
    · exact evaluate_of_coherent (Direct.simplify_sound hm raw).1 h hx
    · intro other
      exact evaluate_of_coherent (Direct.evaluate_coherent hm raw other) h hx

theorem rebuild_restores_zero_and_long_coefficient :
    let fresh : Memo Store := new Store.empty .default
    rebuild "x - x" "0" fresh = (.ok .zero, { fresh with parses := 1 }) ∧
    rebuild "(100000*x)*(100000*x)" "10000000000*x^2" fresh =
      (.ok (.ofTerms [⟨2, 10000000000⟩]), { fresh with parses := 2 }) ∧
    (evaluate "(100000*x)*(100000*x)" "-3" fresh).1 = .ok 90000000000 ∧
    (evaluate "(100000*x)*(100000*x)" "-3" (simplify "(100000*x)*(100000*x)" fresh).2).1 =
      .ok 90000000000 := by
  intro fresh
  have hzero : Polynomial.read "x - x" = .ok (.ofTerms [⟨1, 1⟩, ⟨1, -1⟩]) := by decide
  have hlong : Polynomial.read "(100000*x)*(100000*x)" = .ok (.ofTerms [⟨2, 10000000000⟩]) := by
    decide
  have hpower : (Polynomial.ofTerms [⟨2, 10000000000⟩]).evaluate (-3) = 90000000000 := by
    change Term.evaluate ⟨2, 10000000000⟩ (-3) + 0 = 90000000000
    rw [Term.evaluate, Term.power_eq_pow]
    decide
  obtain ⟨hlong, hvalue⟩ := rebuild_restores_computed hlong
  obtain ⟨hcomputed, hrebuilt, -⟩ := hvalue .default [] "-3" (-3) (by decide)
  rw [hpower] at hcomputed hrebuilt
  exact ⟨((rebuild_restores_computed hzero).1 Store inferInstance fresh).2,
    (hlong Store inferInstance fresh).2, hcomputed, hrebuilt⟩

end Polycalc.Memo
