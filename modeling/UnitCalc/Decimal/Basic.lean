import UnitCalc.Double.Parts

/-!
# `UnitCalc.Decimal.Basic` — exact decimals

A decimal is `coefficient · 10 ^ exponent`. Every finite double has an exact one, because two
divides ten, and every decimal has a nearest double.

## Contents
- **Decimals.** `Decimal`, `Decimal.width`, `Decimal.trim`.
- **To doubles.** `Decimal.toFloat`: the nearest double.
- **From doubles.** `Decimal.ofParts`: the exact decimal of a magnitude.
-/

namespace UnitCalc

/-- The number `coefficient · 10 ^ exponent`. -/
structure Decimal where
  coefficient : Nat
  exponent : Int
deriving DecidableEq, Repr

namespace Decimal

/-- The digits of the coefficient; zero has the one digit `0`. -/
def digits (d : Decimal) : List Char :=
  Nat.toDigits 10 d.coefficient

/-- How many digits the coefficient has. -/
def width (d : Decimal) : Nat :=
  d.digits.length

/-- The nearest double, an even mantissa on a tie, infinity beyond the largest double. -/
def toFloat (d : Decimal) : Float :=
  ⟨.ofScientific d.coefficient d.exponent⟩

/-- The magnitude of a finite double, exactly: `m / 2 ^ k` is `m · 5 ^ k / 10 ^ k`. -/
def ofParts (p : Double.Parts) : Decimal :=
  match p.exponent with
  | .ofNat e => ⟨p.mantissa <<< e, 0⟩
  | .negSucc k => ⟨p.mantissa * Nat.pow 5 (k + 1), .negSucc k⟩

/-- Moves up to `turns` trailing zeros of the coefficient into the exponent. -/
def trimZeros : (turns : Nat) → Decimal → Decimal
  | 0, d => d
  | turns + 1, d =>
    if d.coefficient % 10 = 0 then trimZeros turns ⟨d.coefficient / 10, d.exponent + 1⟩ else d

/-- The same number without trailing zeros in the coefficient; zero is `0 · 10 ^ 0`. -/
def trim (d : Decimal) : Decimal :=
  if d.coefficient = 0 then ⟨0, 0⟩ else trimZeros d.width d

end Decimal

end UnitCalc
