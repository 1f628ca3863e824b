import UnitCalc.Formula.Parser

/-!
# `UnitCalc.Formula.Settings` — limits and policies

What a host may choose about formulas: how deep they may be, what a division by zero gives, and
what a variable without a value counts as.
-/

namespace UnitCalc.Formula

/-- What a division by zero gives. -/
inductive DivisionByZero where
  /-- An error. -/
  | error
  /-- An infinity, or not-a-number for zero by zero. -/
  | ieee754
deriving DecidableEq, Repr

/-- What a variable without a value gives. -/
inductive UnboundVariables where
  /-- An error. -/
  | error
  /-- Zero. -/
  | zero
deriving DecidableEq, Repr

/-- The limit and the policies under which formulas are read and evaluated. -/
structure Settings where
  maxDepth : Nat := defaultMaxDepth
  divisionByZero : DivisionByZero := .error
  unboundVariables : UnboundVariables := .error
deriving DecidableEq, Repr

instance : Inhabited Settings := ⟨{}⟩

end UnitCalc.Formula
