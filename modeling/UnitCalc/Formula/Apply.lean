import UnitCalc.Double.Arithmetic
import UnitCalc.Double.Elementary
import UnitCalc.Double.Whole
import UnitCalc.Formula.EvalError
import UnitCalc.Formula.Settings

/-!
# `UnitCalc.Formula.Apply` — operators and functions on values

What a single node of a tree does with the values of its operands. An argument outside the domain
of a function is an error and gives no number.

## Contents
- **Operators.** `divide`, `power`, `BinOp.apply`.
- **Guards.** `squareRoot`, `logarithm`, `onUnit`, `roundTo`.
- **Functions.** `Func.apply`.
-/

namespace UnitCalc.Formula

/-! ## Operators -/

/-- A quotient. Whether a zero divisor is an error is a policy. -/
def divide (policy : DivisionByZero) (a b : Float) : Except EvalError Float :=
  if b == 0 && policy = .error then .error .divisionByZero else .ok (a / b)

/-- A power. Zero to a negative power is a division by zero, and a negative base needs a whole
    exponent. -/
def power (policy : DivisionByZero) (base exponent : Float) : Except EvalError Float :=
  if base == 0 && exponent < 0 && policy = .error then .error .divisionByZero
  else if base < 0 && exponent.isFinite && !Double.isWhole exponent then
    .error (.domain (.fractionalPower base exponent))
  else .ok (Double.power base exponent)

/-- The value of an operation on two values. -/
def BinOp.apply (policy : DivisionByZero) : BinOp → Float → Float → Except EvalError Float
  | .add, a, b => .ok (a + b)
  | .sub, a, b => .ok (a - b)
  | .mul, a, b => .ok (a * b)
  | .div, a, b => divide policy a b
  | .pow, a, b => power policy a b

/-! ## Guards -/

def squareRoot (x : Float) : Except EvalError Float :=
  if x < 0 then .error (.domain (.negativeRoot x)) else .ok x.sqrt

/-- The logarithm `f`, computed by `log` on positive numbers. -/
def logarithm (f : Func) (log : Float → Float) (x : Float) : Except EvalError Float :=
  if x ≤ 0 then .error (.domain (.nonPositiveLog f x)) else .ok (log x)

/-- The inverse function `f`, computed by `inverse` from `-1` to `1`. -/
def onUnit (f : Func) (inverse : Float → Float) (x : Float) : Except EvalError Float :=
  if -1 ≤ x && x ≤ 1 then .ok (inverse x) else .error (.domain (.outsideUnit f x))

/-- The whole number of decimal places that a double asks for, at most 308 on either side of the
    point. -/
def placesOf (places : Float) : Int :=
  match Double.parts? places with
  | none => 0
  | some p =>
    let size := min p.whole 308
    if p.negative then -(size : Int) else (size : Int)

/-- Rounds to a number of decimal places, a negative one rounding to tens, hundreds and so on. A
    number that has no such places to lose stays as it is. -/
def roundTo (x places : Float) : Except EvalError Float :=
  if !places.isFinite then .error (.domain (.roundingPlaces places))
  else
    match placesOf places with
    | .negSucc k =>
      let step := Double.powNat 10 (k + 1)
      .ok (Double.round (x / step) * step)
    | .ofNat n =>
      let factor := Double.powNat 10 n
      let scaled := x * factor
      if scaled.isFinite then .ok (Double.round scaled / factor) else .ok x

/-! ## Functions -/

/-- The value of a function on a list of values. -/
def Func.apply (policy : DivisionByZero) : Func → List Float → Except EvalError Float
  | .sqrt, [x] => squareRoot x
  | .cbrt, [x] => .ok (Double.cubeRoot x)
  | .pow, [base, exponent] => power policy base exponent
  | .exp, [x] => .ok (Double.exponential x)
  | .log, [x] => logarithm .log Double.naturalLog x
  | .log10, [x] => logarithm .log10 Double.decimalLog x
  | .sin, [x] => .ok (Double.sine x)
  | .cos, [x] => .ok (Double.cosine x)
  | .tan, [x] => .ok (Double.tangent x)
  | .asin, [x] => onUnit .asin Double.arcSine x
  | .acos, [x] => onUnit .acos Double.arcCosine x
  | .atan, [x] => .ok (Double.arcTangent x)
  | .atan2, [y, x] => .ok (Double.angle y x)
  | .abs, [x] => .ok x.abs
  | .floor, [x] => .ok (Double.floor x)
  | .ceil, [x] => .ok (Double.ceil x)
  | .round, [x] => .ok (Double.round x)
  | .round, [x, places] => roundTo x places
  | .max, x :: y :: rest => .ok (Double.maximum (x :: y :: rest))
  | .min, x :: y :: rest => .ok (Double.minimum (x :: y :: rest))
  | f, args => .error (.argumentCount f args.length)

end UnitCalc.Formula
