import UnitCalc.Text.Blank
import UnitCalc.Unit.Conversion
import UnitCalc.Uuid

/-!
# `UnitCalc.Unit.Definition` — units as they are defined and kept

## Contents
- **Definitions.** `UnitDef`, and its `measure`.
- **New definitions.** `UnitDef.builtIn`, `UnitDef.user`.
- **Validity.** `UnitError`, `UnitDef.validate`: what every kept unit satisfies.
-/

namespace UnitCalc

open Formula

/-- The definition of a unit. -/
structure UnitDef where
  id : Uuid
  name : String
  symbol : String
  /-- Built-in units cannot be changed. -/
  isBuiltIn : Bool := false
  /-- The unit may take metric prefixes. -/
  takesPrefixes : Bool := false
  /-- How many base units one of the unit is. -/
  factor : Float
  dimension : Dimension := {}
  /-- A formula over `x` that takes the place of the factor. -/
  formula : Option String := none
deriving DecidableEq, Repr

namespace UnitDef

/-- What conversion needs to know of the unit. -/
def measure (u : UnitDef) : Measure Float :=
  ⟨u.symbol, u.factor, u.dimension, u.formula⟩

/-- A built-in unit. -/
def builtIn (id : Uuid) (name symbol : String) (factor : Float) (dimension : Dimension) : UnitDef :=
  { id, name, symbol, isBuiltIn := true, factor, dimension }

/-- A unit of a user, without dimension. -/
def user (id : Uuid) (name symbol : String) (factor : Float) : UnitDef :=
  { id, name, symbol, factor }

/-- The same unit, taking metric prefixes. -/
def withPrefixes (u : UnitDef) : UnitDef :=
  { u with takesPrefixes := true }

/-- The same unit with a formula. -/
def withFormula (u : UnitDef) (formula : String) : UnitDef :=
  { u with formula := some formula }

end UnitDef

/-! ## Validity -/

/-- What can be wrong with the definition of a unit. -/
inductive UnitError where
  | emptyName
  | emptySymbol
  | invalidFactor (factor : Float)
  | invalidFormula (cause : ParseError)
  /-- The formula uses a variable to which conversion gives no value. -/
  | unsupportedVariable (v : Var)
deriving DecidableEq, Repr

def UnitError.message : UnitError → String
  | emptyName => "Unit name must not be empty"
  | emptySymbol => "Unit symbol must not be empty"
  | invalidFactor factor => s!"Factor must be a positive finite number, got {Double.text factor}"
  | invalidFormula cause => s!"Invalid conversion formula: {cause.message}"
  | unsupportedVariable v => s!"Conversion formula may only use x, found '{v.name}'"

namespace UnitDef

/-- A formula of a unit must parse and may use `x` only. -/
def validateFormula (source : String) : Except UnitError Unit :=
  match parse source with
  | .error e => .error (.invalidFormula e)
  | .ok tree =>
    match tree.variables.find? fun v => v ≠ .x with
    | some v => .error (.unsupportedVariable v)
    | none => .ok ()

/-- Checks what every kept unit satisfies, and gives the first thing that is wrong. -/
def validate (u : UnitDef) : Except UnitError Unit :=
  if Text.isBlankText u.name then .error .emptyName
  else if Text.isBlankText u.symbol then .error .emptySymbol
  else if !Scalar.isFactor u.factor then .error (.invalidFactor u.factor)
  else
    match u.formula with
    | none => .ok ()
    | some source => validateFormula source

end UnitDef

end UnitCalc
