import UnitCalc.Unit.Definition

/-!
# `UnitCalc.Unit.Category` — units that belong together

A category is a list of units in the order in which they are shown. Looking a unit up gives the
first one that fits.
-/

namespace UnitCalc

open Formula

/-- A named list of units. -/
structure Category where
  id : Uuid
  name : String
  /-- Built-in categories cannot be changed. -/
  isBuiltIn : Bool := false
  units : List UnitDef := []
deriving DecidableEq, Repr

namespace Category

/-- A new category of a user. -/
def empty (id : Uuid) : Category :=
  { id, name := "New Category" }

/-- The unit through which the others are converted, which is one of itself. -/
def baseUnit? (c : Category) : Option UnitDef :=
  c.units.find? fun u => u.factor == 1

def unit? (c : Category) (id : Uuid) : Option UnitDef :=
  c.units.find? fun u => u.id = id

def unitBySymbol? (c : Category) (symbol : String) : Option UnitDef :=
  c.units.find? fun u => u.symbol = symbol

/-- A new unit of a user. It takes the dimension of the first built-in unit, so that it can be
    converted to the others. -/
def newUnit (c : Category) (id : Uuid) : UnitDef :=
  let dimension :=
    match c.units.find? fun u => u.isBuiltIn with
    | some u => u.dimension
    | none => {}
  { UnitDef.user id "New Unit" "unit" 1 with dimension }

/-- Converts a value into every unit of the category. One failure does not hide the others. -/
def convertAll (c : Category) (settings : Settings) (value : Float) (source : Measure Float) :
    List (UnitDef × Except (ConversionError Float) Float) :=
  c.units.map fun u => (u, source.convert settings value u.measure)

end Category

end UnitCalc
