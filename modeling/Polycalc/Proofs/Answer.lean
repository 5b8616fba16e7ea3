import Polycalc.Answer
import Polycalc.Proofs.Printer
import Polycalc.Proofs.Traversal

namespace Polycalc

open Traversal

namespace Polynomial

lemma readText_of_trim {cs : List Char} (h : Text.trim cs = ['0']) :
    readText cs = .error (.about .badCoefficient ['+', '0']) := by
  have hstrip : Text.strip cs = ['0'] := by
    rw [← Text.strip_trim, h]
    decide
  rw [readText, hstrip]
  decide

lemma readCanonical_of_read {raw : String} {p : Polynomial} (h : read raw = .ok p) :
    readCanonical raw = .ok p := by
  rw [readCanonical, if_neg]
  · exact h
  · intro htrim
    rw [read, readText_of_trim htrim] at h
    cases h

end Polynomial

namespace Answer

lemma simplified_eq_ok_iff {raw text : String} :
    simplified raw = .ok text ↔ ∃ p, Polynomial.read raw = .ok p ∧ p.simplify.render = text :=
  map_eq_ok_iff

lemma simplified_of_read {raw : String} {p : Polynomial} (h : Polynomial.read raw = .ok p) :
    simplified raw = .ok p.simplify.render := simplified_eq_ok_iff.mpr ⟨p, h, rfl⟩

lemma value_of_read {raw : String} {p : Polynomial} (h : Polynomial.read raw = .ok p) (x : Int64) :
    value raw x = .ok (p.evaluate x) :=
  map_eq_ok_iff.mpr ⟨p, Polynomial.readCanonical_of_read h, rfl⟩

end Answer

end Polycalc
