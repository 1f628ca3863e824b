import UnitCalc.Double.Parts

/-!
# `UnitCalc.Double.Elementary` — the elementary functions

The one boundary to the mathematics library of the platform, whose functions have no definition
here. What the library must answer at an infinite angle is fixed by the standard of floating-point
arithmetic, and is therefore stated in the definitions.
-/

namespace UnitCalc.Double

/-- A periodic function has no value at an infinite angle. -/
def periodic (f : Float → Float) (x : Float) : Float :=
  if x.isInf then notANumber else f x

def sine : Float → Float := periodic Float.sin
def cosine : Float → Float := periodic Float.cos
def tangent : Float → Float := periodic Float.tan
def arcSine : Float → Float := Float.asin
def arcCosine : Float → Float := Float.acos
def arcTangent : Float → Float := Float.atan

/-- The angle of the point `(x, y)`. -/
def angle (y x : Float) : Float := Float.atan2 y x

def exponential : Float → Float := Float.exp
def naturalLog : Float → Float := Float.log
def decimalLog : Float → Float := Float.log10
def cubeRoot : Float → Float := Float.cbrt

/-- `base ^ exponent` for any two doubles. -/
def power (base exponent : Float) : Float := Float.pow base exponent

end UnitCalc.Double
