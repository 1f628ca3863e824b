import UnitCalc.Formula.Named
import UnitCalc.Unit.Category

/-!
# `UnitCalc.Library.Basic` — libraries

A library holds categories of units, and formulas, in the order in which they were added. It is the
whole of what a store keeps.
-/

namespace UnitCalc

open Formula

/-- The version of the document format that new libraries have. -/
def libraryVersion : UInt32 := 1

/-- Categories and formulas, each in the order in which they were added. -/
structure Library where
  version : UInt32 := libraryVersion
  categories : List Category := []
  formulas : List Named := []
deriving DecidableEq, Repr

namespace Library

/-- A library that holds nothing. -/
def empty : Library := {}

/-- The units of all categories, in the order of the categories. -/
def units (l : Library) : List UnitDef :=
  l.categories.flatMap (·.units)

/-- No category has been added yet. -/
def isEmpty (l : Library) : Bool :=
  l.categories.isEmpty

end Library

end UnitCalc
