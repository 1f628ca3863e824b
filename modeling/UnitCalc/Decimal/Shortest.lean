import UnitCalc.Decimal.Basic

/-!
# `UnitCalc.Decimal.Shortest` — the fewest digits that read back

The shortest decimal of a double has as few digits as a decimal can have that reads back to that
double, and of those it is the nearest one. It is searched for on the grids of decimals with one,
two, … seventeen digits: on each grid only the two neighbours of the exact value can read back,
and the first grid on which one does gives the answer. All steps compare exact numbers.

## Contents
- **Ties.** `Tie`: which neighbour wins when both are equally near.
- **Grids.** `Decimal.onGrid`: the neighbour that reads back, if one does.
- **The search.** `Decimal.shortest`.
-/

namespace UnitCalc

/-- Which of two equally near decimals of one grid is taken. -/
inductive Tie where
  /-- The larger magnitude. -/
  | up
  /-- The one whose last digit is even. -/
  | even
deriving DecidableEq, Repr

/-- Whether `below + cut / unit` is rounded up to `below + 1`. -/
def Tie.roundsUp (tie : Tie) (below cut unit : Nat) : Bool :=
  match compare (2 * cut) unit, tie with
  | .lt, _ => false
  | .gt, _ => true
  | .eq, .up => true
  | .eq, .even => below % 2 == 1

/-- The quotient `n / unit` rounded to a whole number, a tie as `tie` says. -/
def Tie.roundDiv (tie : Tie) (n unit : Nat) : Nat :=
  if tie.roundsUp (n / unit) (n % unit) unit then n / unit + 1 else n / unit

namespace Decimal

/-- The decimal of at most `n` digits beside the exact value `d` that reads back to `x`. When both
    neighbours do, it is the nearer one. -/
def onGrid (tie : Tie) (x : Float) (d : Decimal) (n : Nat) : Option Decimal :=
  let cut := d.width - n
  let unit := Nat.pow 10 cut
  let neighbour (c : Nat) : Decimal := ⟨c, d.exponent + cut⟩
  let below := neighbour (d.coefficient / unit)
  let above := neighbour (d.coefficient / unit + 1)
  match below.toFloat == x, above.toFloat == x with
  | true, true => some (neighbour (tie.roundDiv d.coefficient unit))
  | true, false => some below
  | false, true => some above
  | false, false => none

/-- The shortest decimal that reads back to the magnitude of a finite double. The exact decimal
    stands in when no grid up to seventeen digits has one. -/
def shortest (tie : Tie) (p : Double.Parts) : Decimal :=
  let exact := ofParts p
  let x := exact.toFloat
  (((List.range' 1 17).findSome? (onGrid tie x exact)).getD exact).trim

end Decimal

end UnitCalc
