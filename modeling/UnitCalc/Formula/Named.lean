import UnitCalc.Formula.Compiled
import UnitCalc.Uuid

/-!
# `UnitCalc.Formula.Named` — formulas that users name and keep

## Contents
- **Records.** `Named`, with `Named.evalAt` and `Named.compile`.
- **Linear formulas.** `linearText`: the text of `x * scale + offset`.
- **Presets.** `Preset`: the temperature formulas that are offered to start from.
-/

namespace UnitCalc.Formula

/-- A formula text under a name and with a label. -/
structure Named where
  id : Uuid
  name : String
  symbol : String
  source : String
deriving DecidableEq, Repr

namespace Named

/-- Reads the formula within the default limit. -/
def compile (f : Named) : Except FormulaError Compiled :=
  Formula.compile {} f.source

/-- The value of the formula. -/
def eval (f : Named) (b : Bindings) : Except FormulaError Float :=
  evaluate {} b f.source

/-- The value of the formula where only `x` has a value. -/
def evalAt (f : Named) (x : Float) : Except FormulaError Float :=
  f.eval (.ofX x)

end Named

/-! ## Linear formulas -/

/-- The characters of `x * scale`, followed by the offset with its sign unless it is zero. -/
def linearChars (scale offset : Float) : List Char :=
  "x * ".toList ++ Double.chars scale ++
    if offset > 0 then " + ".toList ++ Double.chars offset
    else if offset < 0 then " - ".toList ++ Double.chars offset.abs
    else []

/-- The text of a linear formula. -/
def linearText (scale offset : Float) : String :=
  String.ofList (linearChars scale offset)

/-- A linear formula as a record. -/
def Named.linear (id : Uuid) (name symbol : String) (scale offset : Float) : Named :=
  ⟨id, name, symbol, linearText scale offset⟩

/-! ## Presets -/

/-- The formulas between temperature scales that are offered to start from. -/
inductive Preset where
  | celsiusToFahrenheit | fahrenheitToCelsius | celsiusToKelvin | kelvinToCelsius
deriving DecidableEq, Repr

namespace Preset

/-- All presets in their order. -/
def all : List Preset :=
  [celsiusToFahrenheit, fahrenheitToCelsius, celsiusToKelvin, kelvinToCelsius]

def name : Preset → String
  | celsiusToFahrenheit => "Celsius to Fahrenheit"
  | fahrenheitToCelsius => "Fahrenheit to Celsius"
  | celsiusToKelvin => "Celsius to Kelvin"
  | kelvinToCelsius => "Kelvin to Celsius"

def symbol : Preset → String
  | celsiusToFahrenheit => "°C → °F"
  | fahrenheitToCelsius => "°F → °C"
  | celsiusToKelvin => "°C → K"
  | kelvinToCelsius => "K → °C"

def source : Preset → String
  | celsiusToFahrenheit => "x * 9/5 + 32"
  | fahrenheitToCelsius => "(x - 32) * 5/9"
  | celsiusToKelvin => "x + 273.15"
  | kelvinToCelsius => "x - 273.15"

/-- The preset as a record of its own. -/
def named (p : Preset) (id : Uuid) : Named :=
  ⟨id, p.name, p.symbol, p.source⟩

end Preset

end UnitCalc.Formula
