/-!
# `UnitCalc.Text.Ranges` — classes of characters

A class of characters is given by the ranges of its code points, each with its first and its last
one.
-/

namespace UnitCalc.Text

/-- The code point lies in one of the ranges. -/
def inRanges (ranges : List (Nat × Nat)) (c : Char) : Bool :=
  ranges.any fun r => r.1 ≤ c.toNat && c.toNat ≤ r.2

end UnitCalc.Text
