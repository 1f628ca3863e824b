import UnitCalc.Decimal.Notation
import UnitCalc.Formula.ParseError

/-!
# `UnitCalc.Formula.EvalError` — why a formula has no value

## Contents
- **Domains.** `DomainFault`: an argument outside the domain of a function.
- **Evaluation.** `EvalError`.
- **Formulas.** `FormulaError`: a formula that does not parse, or does not evaluate.
-/

namespace UnitCalc.Formula

/-- An argument outside the domain of a function. -/
inductive DomainFault where
  | negativeRoot (x : Float)
  /-- The logarithm `f` of zero or of a negative number. -/
  | nonPositiveLog (f : Func) (x : Float)
  /-- The inverse function `f` of a number that is no sine or cosine. -/
  | outsideUnit (f : Func) (x : Float)
  | fractionalPower (base exponent : Float)
  /-- A number of decimal places that is no finite number. -/
  | roundingPlaces (places : Float)
deriving DecidableEq, Repr

def DomainFault.text : DomainFault → String
  | negativeRoot x => s!"sqrt of negative number {Double.text x}"
  | nonPositiveLog f x => s!"{f.name} of non-positive number {Double.text x}"
  | outsideUnit f x => s!"{f.name} argument {Double.text x} is outside [-1, 1]"
  | fractionalPower base exponent =>
    s!"negative base {Double.text base} with fractional exponent {Double.text exponent}"
  | roundingPlaces places => s!"round() digits must be finite, got {Double.text places}"

/-- Why a tree has no value. -/
inductive EvalError where
  | divisionByZero
  | domain (fault : DomainFault)
  | unboundVariable (v : Var)
  /-- A value was given for a name that is no variable. -/
  | unknownVariable (name : String)
  | argumentCount (f : Func) (got : Nat)
  | tooDeep (limit : Nat)
deriving DecidableEq, Repr

def EvalError.message : EvalError → String
  | divisionByZero => "Division by zero"
  | domain fault => s!"Domain error: {fault.text}"
  | unboundVariable v => s!"Variable '{v.name}' has no value"
  | unknownVariable name => s!"Unknown variable '{name}', expected x, y or z"
  | argumentCount f got => s!"{f.name}() cannot take {got} arguments"
  | tooDeep limit => s!"Expression is deeper than {limit} levels"

/-- Why a formula text has no value. -/
inductive FormulaError where
  | parse (e : ParseError)
  | eval (e : EvalError)
deriving DecidableEq, Repr

def FormulaError.message : FormulaError → String
  | parse e => e.message
  | eval e => e.message

end UnitCalc.Formula
