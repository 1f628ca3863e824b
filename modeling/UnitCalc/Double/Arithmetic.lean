/-!
# `UnitCalc.Double.Arithmetic` — powers and extrema of doubles

Both functions fix an order of evaluation that their results depend on: the order in which a
power multiplies decides the last digits, and which of two equal operands an extremum returns
decides the sign of a zero.

## Contents
- **Powers.** `powNat`: a natural power by repeated squaring.
- **Extrema.** `larger`, `smaller`, `maximum`, `minimum`: operands that are not numbers are passed over.
-/

namespace UnitCalc.Double

/-- The squaring loop: `r · a ^ n`, halving `n` at each turn. `turns` bounds the number of turns. -/
def powNatLoop : (turns : Nat) → (r a : Float) → (n : Nat) → Float
  | 0, r, _, _ => r
  | turns + 1, r, a, n =>
    let r := if n % 2 = 1 then r * a else r
    if n / 2 = 0 then r else powNatLoop turns r (a * a) (n / 2)

/-- `a ^ n` by repeated squaring, the lowest binary digit of `n` first. -/
def powNat (a : Float) (n : Nat) : Float :=
  powNatLoop (n + 1) 1.0 a n

/-- The larger operand, the first one when they are equal. -/
def larger (a b : Float) : Float :=
  if a.isNaN then b else if b > a then b else a

/-- The smaller operand, the first one when they are equal. -/
def smaller (a b : Float) : Float :=
  if a.isNaN then b else if b < a then b else a

/-- The largest of the numbers in a list, negative infinity when it holds none. -/
def maximum (xs : List Float) : Float :=
  xs.foldl larger (-1.0 / 0.0)

/-- The smallest of the numbers in a list, infinity when it holds none. -/
def minimum (xs : List Float) : Float :=
  xs.foldl smaller (1.0 / 0.0)

end UnitCalc.Double
