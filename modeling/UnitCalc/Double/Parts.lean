/-!
# `UnitCalc.Double.Parts` — a double taken apart

A double is a `Float` of the core library, whose model makes it an unsigned zero, a signed
infinity, the one value that is not a number, or `± mantissa · 2 ^ exponent`. This module reads
the parts off and gives them names.

## Contents
- **Parts.** `Parts`, `parts?`: sign, mantissa and exponent of a finite double.
- **Sign.** `isNegative`: whether the sign is written, which `-0` has and `0` has not.
- **Whole doubles.** `ofWhole`: a small natural number with a sign, as a double.
-/

namespace UnitCalc.Double

/-- A finite double as `± mantissa · 2 ^ exponent`. -/
structure Parts where
  /-- The sign is minus; `-0` has it too. -/
  negative : Bool
  mantissa : Nat
  exponent : Int
deriving DecidableEq, Repr

/-- The parts of a finite double; infinities and not-a-number have none. -/
def parts? (x : Float) : Option Parts :=
  match x.toModel.unpack with
  | .zero s => some ⟨s == .negative, 0, 0⟩
  | .finite s m e _ => some ⟨s == .negative, m, e⟩
  | .infinity _ => none
  | .notANumber => none

/-- The sign of the double is minus. Not-a-number has no sign. -/
def isNegative (x : Float) : Bool :=
  match x.toModel.unpack with
  | .zero s => s == .negative
  | .finite s _ _ _ => s == .negative
  | .infinity s => s == .negative
  | .notANumber => false

/-- The natural number `n` with a sign. It is exact for every `n ≤ 2 ^ 53`. -/
def ofWhole (negative : Bool) (n : Nat) : Float :=
  let magnitude : Float := ⟨.ofNat n⟩
  if negative then -magnitude else magnitude

/-- Positive infinity. -/
def infinity : Float := 1.0 / 0.0

/-- The value that is not a number. -/
def notANumber : Float := 0.0 / 0.0

end UnitCalc.Double
