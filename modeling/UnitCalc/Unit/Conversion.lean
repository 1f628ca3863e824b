import UnitCalc.Formula.Compiled
import UnitCalc.Unit.Dimension
import UnitCalc.Unit.Temperature

/-!
# `UnitCalc.Unit.Conversion` — converting between units

What conversion needs to know of a unit is its measure. A value is converted by the first of these
rules that applies:

1. two temperatures are converted by their scales;
2. units of different dimensions are not converted;
3. a formula of the source unit is applied to the value;
4. a formula of the target unit is applied to the value times the source factor;
5. the value is multiplied by the source factor and divided by the target factor.

The rules are stated for any numbers, and used with doubles.

## Contents
- **Measures.** `Measure`.
- **Errors.** `ConversionError`.
- **Rules.** `convertTemperature`, `Measure.convertWith`.
- **Doubles.** `Measure.convert`.
-/

namespace UnitCalc

open Formula

/-- What conversion needs to know of a unit. -/
structure Measure (α : Type) where
  symbol : String
  /-- How many base units one of the unit is. -/
  factor : α
  dimension : Dimension := {}
  /-- A formula over `x` that takes the place of the factor. -/
  formula : Option String := none
deriving Repr

/-- Why a value cannot be converted. -/
inductive ConversionError (α : Type) where
  | dimensionMismatch (source target : String)
  | invalidFormula (formula : String) (cause : FormulaError)
  | invalidFactor (symbol : String) (factor : α)
  | unknownScale (symbol : String)
deriving DecidableEq, Repr

def ConversionError.message : ConversionError Float → String
  | dimensionMismatch source target =>
    s!"Cannot convert '{source}' to '{target}': dimensions differ"
  | invalidFormula formula cause => s!"Invalid formula '{formula}': {cause.message}"
  | invalidFactor symbol factor => s!"Unit '{symbol}' has invalid factor {Double.text factor}"
  | unknownScale symbol => s!"Unknown temperature unit '{symbol}'"

section Rules

variable {α : Type} [Scalar α]

/-- The scale with a symbol. -/
def scaleOf (symbol : String) : Except (ConversionError α) Scale :=
  match Scale.ofSymbol? symbol with
  | some scale => .ok scale
  | none => .error (.unknownScale symbol)

/-- Converts between the temperature scales with two symbols. -/
def convertTemperature (value : α) (source target : String) : Except (ConversionError α) α := do
  let s ← scaleOf source
  let t ← scaleOf target
  return s.convert t value

namespace Measure

/-- The factor of a unit, if it can be one. -/
def checkedFactor (m : Measure α) : Except (ConversionError α) α :=
  if Scalar.isFactor m.factor then .ok m.factor else .error (.invalidFactor m.symbol m.factor)

/-- Applies a formula, given a way to evaluate formulas. -/
def applyFormula (run : String → α → Except FormulaError α) (formula : String) (x : α) :
    Except (ConversionError α) α :=
  match run formula x with
  | .ok y => .ok y
  | .error e => .error (.invalidFormula formula e)

/-- Converts a value from one unit to another, given a way to evaluate formulas. -/
def convertWith (run : String → α → Except FormulaError α) (value : α) (source target : Measure α) :
    Except (ConversionError α) α :=
  if source.dimension.isTemperature && target.dimension.isTemperature then
    convertTemperature value source.symbol target.symbol
  else if !source.dimension.same target.dimension then
    .error (.dimensionMismatch source.symbol target.symbol)
  else
    match source.formula with
    | some formula => applyFormula run formula value
    | none => do
      let a ← source.checkedFactor
      match target.formula with
      | some formula => applyFormula run formula (value * a)
      | none => do
        let b ← target.checkedFactor
        return value * a / b

end Measure

end Rules

namespace Measure

/-- Converts a value under the given settings. -/
def convert (settings : Settings) (value : Float) (source target : Measure Float) :
    Except (ConversionError Float) Float :=
  convertWith (fun formula x => evaluate settings (.ofX x) formula) value source target

end Measure

end UnitCalc
