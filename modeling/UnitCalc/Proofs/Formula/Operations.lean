import UnitCalc.Formula.Apply
import UnitCalc.Proofs.Double.Packing

/-!
# `Proofs.Formula.Operations` — what operators and functions do on values

An operation on values fails under a few conditions, which are listed here (`OperatorFails`, `CallFails`), and
otherwise has the value of plain arithmetic (`BinOp.result`, `Func.result`). The list is complete: where no
condition holds there is a value.

The functions are defined by the shape of the list of their arguments. Read by position, as in
`Func.read`, they find every argument they ask for (`Func.read_eq`), since the number of arguments is checked
first.
-/

namespace UnitCalc.Formula

variable {policy : DivisionByZero} {err : EvalError}

/-- The errors that operations on values give; the others are those of a variable, or of the tree as a
    whole. -/
def EvalError.OfOperation : EvalError → Prop
  | .divisionByZero | .domain _ | .argumentCount _ _ => True
  | .unboundVariable _ | .unknownVariable _ | .tooDeep _ => False

/-! ## Operators -/

/-- The errors of an operator on two values. -/
inductive OperatorFails (policy : DivisionByZero) : BinOp → Float → Float → EvalError → Prop
  | zeroDivisor {x y : Float} (error : policy = .error) (zero : (y == 0) = true) :
      OperatorFails policy .div x y .divisionByZero
  | zeroBase {x y : Float} (error : policy = .error) (zero : (x == 0) = true) (negative : y < 0) :
      OperatorFails policy .pow x y .divisionByZero
  | fractionalPower {x y : Float} (negative : x < 0) (finite : y.isFinite = true)
      (fractional : Double.isWhole y = false) : OperatorFails policy .pow x y (.domain (.fractionalPower x y))

/-- What an operator gives where it does not fail. -/
def BinOp.result : BinOp → Float → Float → Float
  | .add, x, y => x + y
  | .sub, x, y => x - y
  | .mul, x, y => x * y
  | .div, x, y => x / y
  | .pow, x, y => Double.power x y

theorem OperatorFails.apply {op : BinOp} {x y : Float} (h : OperatorFails policy op x y err) :
    op.apply policy x y = .error err := by
  cases h with
  | zeroDivisor error zero =>
    rw [BinOp.apply, divide, if_pos (by simp [error, zero])]
  | zeroBase error zero negative =>
    rw [BinOp.apply, power, if_pos (by simp [error, zero, negative])]
  | fractionalPower negative finite fractional =>
    -- a base below zero is not zero
    have regular : ¬ (x == 0) = true := fun zero => Double.not_lt_of_beq zero negative
    rw [BinOp.apply, power, if_neg (by simp [regular]), if_pos (by simp [negative, finite, fractional])]

theorem OperatorFails.ofOperation {op : BinOp} {x y : Float} (h : OperatorFails policy op x y err) :
    err.OfOperation := by
  cases h <;> trivial

theorem BinOp.apply_of_not_fails {op : BinOp} {x y : Float} (h : ∀ err, ¬ OperatorFails policy op x y err) :
    op.apply policy x y = .ok (op.result x y) := by
  cases op with
  | add | sub | mul => rfl
  | div =>
    rw [apply, divide, if_neg]
    · rfl
    · intro zero
      rw [Bool.and_eq_true, decide_eq_true_eq] at zero
      exact h _ (.zeroDivisor zero.2 zero.1)
  | pow =>
    rw [apply, power, if_neg, if_neg]
    · rfl
    · intro fractional
      simp only [Bool.and_eq_true, decide_eq_true_eq, Bool.not_eq_true'] at fractional
      exact h _ (.fractionalPower fractional.1.1 fractional.1.2 fractional.2)
    · intro zero
      simp only [Bool.and_eq_true, decide_eq_true_eq] at zero
      exact h _ (.zeroBase zero.2 zero.1.1 zero.1.2)

/-! ## Functions -/

/-- The errors of a function on a list of values. -/
inductive CallFails (policy : DivisionByZero) : Func → List Float → EvalError → Prop
  | argumentCount {f : Func} {xs : List Float} (refused : f.arity.accepts xs.length = false) :
      CallFails policy f xs (.argumentCount f xs.length)
  | power {x y : Float} {err : EvalError} (fails : OperatorFails policy .pow x y err) :
      CallFails policy .pow [x, y] err
  | negativeRoot {x : Float} (negative : x < 0) : CallFails policy .sqrt [x] (.domain (.negativeRoot x))
  | nonPositiveLog {f : Func} {x : Float} (which : f = .log ∨ f = .log10) (low : x ≤ 0) :
      CallFails policy f [x] (.domain (.nonPositiveLog f x))
  | outsideUnit {f : Func} {x : Float} (which : f = .asin ∨ f = .acos) (outside : ¬ (-1 ≤ x ∧ x ≤ 1)) :
      CallFails policy f [x] (.domain (.outsideUnit f x))
  | roundingPlaces {x places : Float} (infinite : places.isFinite = false) :
      CallFails policy .round [x, places] (.domain (.roundingPlaces places))

/-- A number rounded to a finite number of decimal places. -/
def rounded (x places : Float) : Float :=
  match placesOf places with
  | .negSucc k => Double.round (x / Double.powNat 10 (k + 1)) * Double.powNat 10 (k + 1)
  | .ofNat n =>
    if (x * Double.powNat 10 n).isFinite then Double.round (x * Double.powNat 10 n) / Double.powNat 10 n
    else x

/-- What a function gives where it does not fail; with a number of arguments that it does not accept, this
    means nothing. -/
def Func.result : Func → List Float → Float
  | .sqrt, [x] => x.sqrt
  | .cbrt, [x] => Double.cubeRoot x
  | .pow, [x, y] => Double.power x y
  | .exp, [x] => Double.exponential x
  | .log, [x] => Double.naturalLog x
  | .log10, [x] => Double.decimalLog x
  | .sin, [x] => Double.sine x
  | .cos, [x] => Double.cosine x
  | .tan, [x] => Double.tangent x
  | .asin, [x] => Double.arcSine x
  | .acos, [x] => Double.arcCosine x
  | .atan, [x] => Double.arcTangent x
  | .atan2, [y, x] => Double.angle y x
  | .abs, [x] => x.abs
  | .floor, [x] => Double.floor x
  | .ceil, [x] => Double.ceil x
  | .round, [x] => Double.round x
  | .round, [x, places] => rounded x places
  | .max, xs => Double.maximum xs
  | .min, xs => Double.minimum xs
  | _, _ => 0

theorem Func.apply_of_refused {f : Func} {xs : List Float} (refused : f.arity.accepts xs.length = false) :
    f.apply policy xs = .error (.argumentCount f xs.length) := by
  unfold apply
  split <;> first | rfl | exact absurd refused (by simp [arity, Arity.accepts])

theorem CallFails.apply {f : Func} {xs : List Float} (h : CallFails policy f xs err) :
    f.apply policy xs = .error err := by
  cases h with
  | argumentCount refused => exact Func.apply_of_refused refused
  | power fails => exact fails.apply
  | negativeRoot negative => exact if_pos negative
  | nonPositiveLog which low =>
    rcases which with rfl | rfl
    · exact if_pos low
    · exact if_pos low
  | @outsideUnit f x which outside =>
    have no : ¬ (decide (-1 ≤ x) && decide (x ≤ 1)) = true := by simpa using outside
    rcases which with rfl | rfl
    · exact if_neg no
    · exact if_neg no
  | roundingPlaces infinite =>
    rw [Func.apply, roundTo, if_pos (by simp [infinite])]

theorem CallFails.ofOperation {f : Func} {xs : List Float} (h : CallFails policy f xs err) :
    err.OfOperation := by
  cases h with
  | power fails => exact fails.ofOperation
  | _ => trivial

theorem roundTo_of_finite {x places : Float} (finite : places.isFinite = true) :
    roundTo x places = .ok (rounded x places) := by
  rw [roundTo, if_neg (by simp [finite]), rounded]
  cases placesOf places with
  | negSucc k => rfl
  | ofNat n =>
    dsimp only
    split <;> rfl

theorem Func.apply_of_not_fails {f : Func} {xs : List Float} (h : ∀ err, ¬ CallFails policy f xs err) :
    f.apply policy xs = .ok (f.result xs) := by
  have accepted : f.arity.accepts xs.length = true := by
    by_contra refused
    exact h _ (.argumentCount (by simpa using refused))
  cases f with
  | pow =>
    obtain ⟨x, y, rfl⟩ := List.length_eq_two.1 (by simpa [arity, Arity.accepts] using accepted)
    exact BinOp.apply_of_not_fails fun err fails => h err (.power fails)
  | round =>
    match xs, accepted, h with
    | [], accepted, _ => cases accepted
    | [x], _, _ => rfl
    | [x, places], _, h =>
      refine roundTo_of_finite ?_
      by_contra infinite
      exact h _ (.roundingPlaces (by simpa using infinite))
    | _ :: _ :: _ :: _, accepted, _ => simp [arity, Arity.accepts] at accepted
  | max | min =>
    match xs, accepted with
    | [], accepted => cases accepted
    | [x], accepted => cases accepted
    | _ :: _ :: _, _ => rfl
  | atan2 =>
    obtain ⟨y, x, rfl⟩ := List.length_eq_two.1 (by simpa [arity, Arity.accepts] using accepted)
    rfl
  | sqrt =>
    obtain ⟨x, rfl⟩ := List.length_eq_one_iff.1 (by simpa [arity, Arity.accepts] using accepted)
    exact if_neg fun negative => h _ (.negativeRoot negative)
  | log | log10 =>
    obtain ⟨x, rfl⟩ := List.length_eq_one_iff.1 (by simpa [arity, Arity.accepts] using accepted)
    exact if_neg fun low => h _ (.nonPositiveLog (by simp) low)
  | asin | acos =>
    obtain ⟨x, rfl⟩ := List.length_eq_one_iff.1 (by simpa [arity, Arity.accepts] using accepted)
    refine if_pos ?_
    by_contra outside
    exact h _ (.outsideUnit (by simp) (by simpa using outside))
  | cbrt | exp | sin | cos | tan | atan | abs | floor | ceil =>
    obtain ⟨x, rfl⟩ := List.length_eq_one_iff.1 (by simpa [arity, Arity.accepts] using accepted)
    rfl

/-! ## Arguments by position -/

/-- The value of a function that reads its arguments by their positions, or nothing when it reads one that is
    not there. -/
def Func.read (policy : DivisionByZero) (f : Func) (xs : List Float) : Option (Except EvalError Float) :=
  if f.arity.accepts xs.length then
    match f with
    | .sqrt => return squareRoot (← xs[0]?)
    | .cbrt => return .ok (Double.cubeRoot (← xs[0]?))
    | .pow => return power policy (← xs[0]?) (← xs[1]?)
    | .exp => return .ok (Double.exponential (← xs[0]?))
    | .log => return logarithm .log Double.naturalLog (← xs[0]?)
    | .log10 => return logarithm .log10 Double.decimalLog (← xs[0]?)
    | .sin => return .ok (Double.sine (← xs[0]?))
    | .cos => return .ok (Double.cosine (← xs[0]?))
    | .tan => return .ok (Double.tangent (← xs[0]?))
    | .asin => return onUnit .asin Double.arcSine (← xs[0]?)
    | .acos => return onUnit .acos Double.arcCosine (← xs[0]?)
    | .atan => return .ok (Double.arcTangent (← xs[0]?))
    | .atan2 => return .ok (Double.angle (← xs[0]?) (← xs[1]?))
    | .abs => return .ok (← xs[0]?).abs
    | .floor => return .ok (Double.floor (← xs[0]?))
    | .ceil => return .ok (Double.ceil (← xs[0]?))
    | .round =>
      if xs.length = 2 then return roundTo (← xs[0]?) (← xs[1]?)
      else return .ok (Double.round (← xs[0]?))
    | .max => return .ok (Double.maximum xs)
    | .min => return .ok (Double.minimum xs)
  else return .error (.argumentCount f xs.length)

/-- **No function reads an argument that is not there.** -/
theorem Func.read_eq (policy : DivisionByZero) (f : Func) (xs : List Float) :
    f.read policy xs = some (f.apply policy xs) := by
  rw [read.eq_def]
  by_cases accepted : f.arity.accepts xs.length = true
  · rw [if_pos accepted]
    cases f with
    | pow | atan2 =>
      obtain ⟨x, y, rfl⟩ := List.length_eq_two.1 (by simpa [arity, Arity.accepts] using accepted)
      rfl
    | round =>
      match xs, accepted with
      | [], accepted => cases accepted
      | [x], _ => rfl
      | [x, places], _ => rfl
      | _ :: _ :: _ :: _, accepted => simp [arity, Arity.accepts] at accepted
    | max | min =>
      match xs, accepted with
      | [], accepted => cases accepted
      | [x], accepted => cases accepted
      | _ :: _ :: _, _ => rfl
    | _ =>
      obtain ⟨x, rfl⟩ := List.length_eq_one_iff.1 (by simpa [arity, Arity.accepts] using accepted)
      rfl
  · rw [if_neg accepted, apply_of_refused (by simpa using accepted)]
    rfl

end UnitCalc.Formula
