namespace Polycalc

inductive Failure.Kind where
  | unsupportedPolynomial
  | unsupportedArgument
  | badCoefficient
  | misplacedTimes
  | badDegree
  | misplacedCaret
  deriving DecidableEq

structure Failure where
  kind : Failure.Kind
  parameters : List String
  deriving DecidableEq

namespace Failure

namespace Kind

def all : List Kind :=
  [unsupportedPolynomial, unsupportedArgument, badCoefficient, misplacedTimes, badDegree,
    misplacedCaret]

def name : Kind → String
  | unsupportedPolynomial => "UnsupportedPolynomialType"
  | unsupportedArgument => "UnsupportedXType"
  | badCoefficient => "ImpossibleToParseCoefficient"
  | misplacedTimes => "IncorrectMultiplySignPosition"
  | badDegree => "ImpossibleToParseDegree"
  | misplacedCaret => "IncorrectDegreeSignPosition"

def code : Kind → Nat
  | unsupportedPolynomial => 1
  | unsupportedArgument => 2
  | badCoefficient => 3
  | misplacedTimes => 4
  | badDegree => 5
  | misplacedCaret => 6

def template : Kind → String
  | unsupportedPolynomial =>
    "Unsupported polynomial type. The example of a correct polynomial: " ++
      "'(x^2 - 5) * (2*x + 2)', '3*x^3 - 7*x + 1'"
  | unsupportedArgument => "Unsupported x type. The example of a correct x: '12', '-5'"
  | badCoefficient =>
    "Impossible to parse coefficient (%s). The example of a correct coefficient: '12', '-5'"
  | misplacedTimes =>
    "Impossible to parse term (%s): incorrect sign '*' position: " ++
      "it should be before 'x' in each term. The example of a correct terms: '2 * x^2', '-5 * x'"
  | badDegree =>
    "Impossible to parse degree from term (%s). The example of a correct terms: '2 * x^2', 'x ^ 5'"
  | misplacedCaret =>
    "Impossible to parse term (%s): incorrect sign '^' position: " ++
      "it should be after 'x' in each term. The example of a correct terms: '2 * x^2', 'x ^ 5'"

def ofCode? (n : Nat) : Option Kind := all.find? (·.code == n)

def ofName? (s : String) : Option Kind := all.find? (·.name == s)

theorem mem_all (k : Kind) : k ∈ all := by cases k <;> decide

theorem ofCode?_code (k : Kind) : ofCode? k.code = some k := by cases k <;> rfl

theorem ofName?_name (k : Kind) : ofName? k.name = some k := by cases k <;> decide

end Kind

def plain (kind : Kind) : Failure := ⟨kind, []⟩

def about (kind : Kind) (text : List Char) : Failure := ⟨kind, [String.ofList text]⟩

def code (f : Failure) : Nat := f.kind.code

def fill : List Char → List String → List Char
  | '%' :: 's' :: r, [] => "null".toList ++ fill r []
  | '%' :: 's' :: r, p :: ps => p.toList ++ fill r ps
  | c :: r, ps => c :: fill r ps
  | [], _ => []

def message (f : Failure) : String := String.ofList (fill f.kind.template.toList f.parameters)

end Failure

/-- What a request can end in. Settings that are not read end the program before there is anything
to ask. -/
inductive Error where
  | polynomial (failure : Failure) (raw : String)
  | argument (failure : Failure)
  | store (reason : String)
  deriving DecidableEq

namespace Error

def failure? : Error → Option Failure
  | polynomial f _ => some f
  | argument f => some f
  | store _ => none

def message : Error → String
  | polynomial f _ => f.message
  | argument f => f.message
  | store reason => "store error: " ++ reason

end Error

end Polycalc
