/-!
# `UnitCalc.Unit.Dimension` — physical dimensions

A dimension is a fraction of base dimensions, each named by a number. Base dimensions may occur
more than once, their order means nothing, and nothing is cancelled: `[1, 2] / [2]` is not
`[1] / []`.
-/

namespace UnitCalc

/-- The number of a base dimension. -/
abbrev DimensionId := UInt32

namespace DimensionId

def length : DimensionId := 1
def time : DimensionId := 2
def mass : DimensionId := 3

/-- Marks the units that are converted by temperature scales. -/
def temperature : DimensionId := 4

end DimensionId

/-- A fraction of base dimensions. -/
structure Dimension where
  numerator : List DimensionId := []
  denominator : List DimensionId := []
deriving DecidableEq, Repr

namespace Dimension

/-- Both parts hold the same base dimensions equally often. -/
def same (a b : Dimension) : Bool :=
  a.numerator.isPerm b.numerator && a.denominator.isPerm b.denominator

/-- A temperature is somewhere above the line. -/
def isTemperature (d : Dimension) : Bool :=
  d.numerator.contains DimensionId.temperature

end Dimension

end UnitCalc
