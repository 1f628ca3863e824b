import UnitCalc.Formula.Named
import UnitCalc.Unit.Category

/-!
# `UnitCalc.Unit.BuiltIn` — the built-in categories and formulas

What an empty library is filled with: nine categories of units, and the temperature formulas.
Every category is one table, and its units share a dimension. Identifiers are given out from outside;
those of `BuiltIn.id` count the categories and the units in them.

## Contents
- **Dimensions.** One for each category.
- **Tables.** `BuiltIn.Row`, `BuiltIn.Table`, `BuiltIn.tables`.
- **Categories and formulas.** `BuiltIn.categories`, `BuiltIn.formulas`.
-/

namespace UnitCalc.BuiltIn

open Formula

/-! ## Dimensions -/

def length : Dimension := ⟨[.length], []⟩
def time : Dimension := ⟨[.time], []⟩
def mass : Dimension := ⟨[.mass], []⟩
def speed : Dimension := ⟨[.length], [.time]⟩
def volume : Dimension := ⟨[.length, .length, .length], []⟩
def area : Dimension := ⟨[.length, .length], []⟩
def temperature : Dimension := ⟨[.temperature], []⟩
def energy : Dimension := ⟨[.mass, .length, .length], [.time, .time]⟩
def pressure : Dimension := ⟨[.mass], [.length, .length, .time]⟩

/-! ## Tables -/

/-- A unit in a table. -/
structure Row where
  name : String
  symbol : String
  factor : Float
  takesPrefixes : Bool

/-- A category as a table. -/
structure Table where
  name : String
  dimension : Dimension
  rows : List Row

/-- The built-in categories in the order in which they are shown. -/
def tables : List Table :=
  [
  ⟨"Distance", BuiltIn.length,
   [
    ⟨"Meter", "m", 1.0, true⟩,
    ⟨"Kilometer", "km", 1000.0, false⟩,
    ⟨"Centimeter", "cm", 0.01, false⟩,
    ⟨"Millimeter", "mm", 0.001, false⟩,
    ⟨"Mile", "mi", 1609.34, false⟩,
    ⟨"Yard", "yd", 0.9144, false⟩,
    ⟨"Foot", "ft", 0.3048, false⟩,
    ⟨"Inch", "in", 0.0254, false⟩]⟩,
  ⟨"Time", BuiltIn.time,
   [
    ⟨"Second", "s", 1.0, false⟩,
    ⟨"Minute", "min", 60.0, false⟩,
    ⟨"Hour", "h", 3600.0, false⟩,
    ⟨"Day", "d", 86400.0, false⟩,
    ⟨"Week", "wk", 604800.0, false⟩,
    ⟨"Month (avg)", "mo", 2628000.0, false⟩,
    ⟨"Year", "yr", 31536000.0, false⟩]⟩,
  ⟨"Mass", BuiltIn.mass,
   [
    ⟨"Kilogram", "kg", 1.0, false⟩,
    ⟨"Gram", "g", 0.001, true⟩,
    ⟨"Milligram", "mg", 0.000001, false⟩,
    ⟨"Metric Ton", "t", 1000.0, false⟩,
    ⟨"Pound", "lb", 0.453592, false⟩,
    ⟨"Ounce", "oz", 0.0283495, false⟩]⟩,
  ⟨"Speed", BuiltIn.speed,
   [
    ⟨"Meters per Second", "m/s", 1.0, false⟩,
    ⟨"Kilometers per Hour", "km/h", 0.277778, false⟩,
    ⟨"Miles per Hour", "mph", 0.44704, false⟩,
    ⟨"Knot", "kn", 0.514444, false⟩]⟩,
  ⟨"Volume", BuiltIn.volume,
   [
    ⟨"Cubic Meter", "m³", 1.0, true⟩,
    ⟨"Liter", "L", 0.001, true⟩,
    ⟨"Milliliter", "mL", 0.000001, false⟩,
    ⟨"Gallon (US)", "gal", 0.00378541, false⟩,
    ⟨"Quart (US)", "qt", 0.000946353, false⟩,
    ⟨"Pint (US)", "pt", 0.000473176, false⟩,
    ⟨"Cup (US)", "cup", 0.000236588, false⟩,
    ⟨"Fluid Ounce (US)", "fl oz", 0.0000295735, false⟩]⟩,
  ⟨"Area", BuiltIn.area,
   [
    ⟨"Square Meter", "m²", 1.0, true⟩,
    ⟨"Square Kilometer", "km²", 1000000.0, false⟩,
    ⟨"Hectare", "ha", 10000.0, false⟩,
    ⟨"Square Mile", "mi²", 2589988.11, false⟩,
    ⟨"Acre", "ac", 4046.86, false⟩,
    ⟨"Square Foot", "ft²", 0.092903, false⟩,
    ⟨"Square Inch", "in²", 0.00064516, false⟩]⟩,
  ⟨"Temperature", BuiltIn.temperature,
   [
    ⟨"Celsius", "°C", 1.0, false⟩,
    ⟨"Fahrenheit", "°F", 1.0, false⟩,
    ⟨"Kelvin", "K", 1.0, false⟩]⟩,
  ⟨"Energy", BuiltIn.energy,
   [
    ⟨"Joule", "J", 1.0, true⟩,
    ⟨"Kilojoule", "kJ", 1000.0, false⟩,
    ⟨"Calorie", "cal", 4.184, false⟩,
    ⟨"Kilocalorie", "kcal", 4184.0, false⟩,
    ⟨"Watt-hour", "Wh", 3600.0, true⟩,
    ⟨"Kilowatt-hour", "kWh", 3600000.0, false⟩,
    ⟨"Electronvolt", "eV", 1.602176634e-19, true⟩]⟩,
  ⟨"Pressure", BuiltIn.pressure,
   [
    ⟨"Pascal", "Pa", 1.0, true⟩,
    ⟨"Kilopascal", "kPa", 1000.0, false⟩,
    ⟨"Bar", "bar", 100000.0, false⟩,
    ⟨"Atmosphere", "atm", 101325.0, false⟩,
    ⟨"Millimeter of Mercury", "mmHg", 133.322, false⟩,
    ⟨"Pound per Square Inch", "psi", 6894.76, false⟩]⟩]

/-! ## Categories and formulas -/

/-- The identifier of unit number `unit` of category number `category`, both counted from one; the
    category itself is number zero. The last four digits hold the two numbers. -/
def id (category unit : Nat) : Uuid :=
  ⟨Vector.ofFn fun i =>
    if i.val = 12 then Uuid.digit 4
    else if i.val = 16 then Uuid.digit 8
    else if i.val = 28 then Uuid.digit (category / 16)
    else if i.val = 29 then Uuid.digit category
    else if i.val = 30 then Uuid.digit (unit / 16)
    else if i.val = 31 then Uuid.digit unit
    else Uuid.digit 0⟩

/-- The unit that a row defines. -/
def Row.unit (r : Row) (id : Uuid) (dimension : Dimension) : UnitDef :=
  { UnitDef.builtIn id r.name r.symbol r.factor dimension with takesPrefixes := r.takesPrefixes }

/-- The category that a table defines. It has the identifier number zero, and its units the ones that
    follow. -/
def Table.category (t : Table) (id : Nat → Uuid) : Category where
  id := id 0
  name := t.name
  isBuiltIn := true
  units := t.rows.mapIdx fun i r => r.unit (id (i + 1)) t.dimension

/-- The built-in categories in the order in which they are shown, under identifiers for every category
    and every unit in it. -/
def categories (id : Nat → Nat → Uuid := BuiltIn.id) : List Category :=
  tables.mapIdx fun i t => t.category (id (i + 1))

/-- The built-in formulas under identifiers of the caller's choice. -/
def formulas (id : Preset → Uuid) : List Named :=
  Preset.all.map fun p => p.named (id p)

end UnitCalc.BuiltIn
