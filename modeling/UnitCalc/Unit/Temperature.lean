/-!
# `UnitCalc.Unit.Temperature` — temperature scales

Temperature scales have different zeros, so that no factor leads from one to another. Every
conversion goes through degrees Celsius. The formulas are stated for any numbers with the four
operations, and say in which order the operations are carried out.

## Contents
- **Numbers.** `Scalar`: what conversions compute with.
- **Scales.** `Scale`, `Scale.toCelsius`, `Scale.ofCelsius`, `Scale.convert`.
-/

namespace UnitCalc

/-- The numbers that conversions compute with: the four operations, decimal literals, and a test
    for those that can be the factor of a unit. -/
class Scalar (α : Type) extends Add α, Sub α, Mul α, Div α, OfScientific α where
  isFactor : α → Bool

/-- A factor is finite and positive. -/
instance : Scalar Float where
  isFactor x := x.isFinite && 0 < x

/-- The temperature scales. -/
inductive Scale where
  | celsius | fahrenheit | kelvin
deriving DecidableEq, Repr

namespace Scale

/-- All scales in their order. -/
def all : List Scale := [celsius, fahrenheit, kelvin]

def symbol : Scale → String
  | celsius => "°C"
  | fahrenheit => "°F"
  | kelvin => "K"

def ofSymbol? (s : String) : Option Scale :=
  all.find? fun scale => scale.symbol = s

variable {α : Type} [Scalar α]

/-- A temperature in degrees Celsius. -/
def toCelsius (scale : Scale) (value : α) : α :=
  match scale with
  | celsius => value
  | fahrenheit => (value - 32.0) * 5.0 / 9.0
  | kelvin => value - 273.15

/-- A temperature given in degrees Celsius. -/
def ofCelsius (scale : Scale) (value : α) : α :=
  match scale with
  | celsius => value
  | fahrenheit => value * 9.0 / 5.0 + 32.0
  | kelvin => value + 273.15

/-- A temperature of one scale on another one. On the same scale nothing is computed. -/
def convert (source target : Scale) (value : α) : α :=
  if source = target then value else target.ofCelsius (source.toCelsius value)

end Scale

end UnitCalc
