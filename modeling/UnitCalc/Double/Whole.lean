import UnitCalc.Double.Parts

/-!
# `UnitCalc.Double.Whole` — rounding a double to a whole number

The four ways of making a double whole are one function, `toWhole`, and a choice between the two
whole numbers around it. The choice is made on the exact binary value, so no step rounds, and the
sign is kept: what lies between `-1` and `0` becomes `-0` when it is rounded up.

## Contents
- **The common part.** `Parts.whole`, `toWhole`.
- **The four ways.** `trunc`, `floor`, `ceil`, `round` (a half goes away from zero).
- **Whole doubles.** `isWhole`.
-/

namespace UnitCalc.Double

/-- The magnitude without its binary places. -/
def Parts.whole (p : Parts) : Nat :=
  match p.exponent with
  | .ofNat e => p.mantissa <<< e
  | .negSucc k => p.mantissa >>> (k + 1)

/-- Replaces a finite double by a whole one. Its magnitude is `whole + cut / unit` with
    `cut < unit`, and `pick` gives the magnitude of the result. Doubles with no binary places,
    infinities and not-a-number stay as they are. -/
def toWhole (pick : (negative : Bool) → (whole cut unit : Nat) → Nat) (x : Float) : Float :=
  match parts? x with
  | none => x
  | some p =>
    match p.exponent with
    | .ofNat _ => x
    | .negSucc k =>
      let unit := 1 <<< (k + 1)
      ofWhole p.negative (pick p.negative (p.mantissa / unit) (p.mantissa % unit) unit)

/-- Rounds toward zero. -/
def trunc : Float → Float :=
  toWhole fun _ whole _ _ => whole

/-- Rounds down. -/
def floor : Float → Float :=
  toWhole fun negative whole cut _ => if negative && cut != 0 then whole + 1 else whole

/-- Rounds up. -/
def ceil : Float → Float :=
  toWhole fun negative whole cut _ => if !negative && cut != 0 then whole + 1 else whole

/-- Rounds to the nearest whole number, a half away from zero. -/
def round : Float → Float :=
  toWhole fun _ whole cut unit => if unit ≤ 2 * cut then whole + 1 else whole

/-- A finite double without binary places. -/
def isWhole (x : Float) : Bool :=
  x.isFinite && trunc x == x

end UnitCalc.Double
