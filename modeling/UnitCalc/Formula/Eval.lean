import UnitCalc.Formula.Apply
import UnitCalc.Formula.Bindings

/-!
# `UnitCalc.Formula.Eval` — the value of a tree

A tree is evaluated from the leaves up, operands from left to right, and the first error is the
answer. A tree deeper than the limit is refused before anything is evaluated.

## Contents
- **Values.** `Expr.value`, `Expr.values`.
- **Evaluation.** `Expr.eval`.
-/

namespace UnitCalc.Formula

/-- The value of a variable under the policy for variables without one. -/
def Settings.lookup (settings : Settings) (b : Bindings) (v : Var) : Except EvalError Float :=
  match b.get v, settings.unboundVariables with
  | some value, _ => .ok value
  | none, .zero => .ok 0
  | none, .error => .error (.unboundVariable v)

namespace Expr

mutual

/-- The value of a tree of any depth. -/
def value (settings : Settings) (b : Bindings) : Expr → Except EvalError Float
  | num x => .ok x
  | const c => .ok c.value
  | var v => settings.lookup b v
  | neg operand => do
    let x ← operand.value settings b
    return -x
  | binary op left right => do
    let l ← left.value settings b
    let r ← right.value settings b
    op.apply settings.divisionByZero l r
  | call f args => do
    let xs ← values settings b args
    f.apply settings.divisionByZero xs

/-- The values of a list of trees. -/
def values (settings : Settings) (b : Bindings) : List Expr → Except EvalError (List Float)
  | [] => .ok []
  | e :: es => do
    let x ← e.value settings b
    let xs ← values settings b es
    return x :: xs

end

/-- The value of a tree, unless it is too deep. -/
def eval (settings : Settings) (b : Bindings) (e : Expr) : Except EvalError Float :=
  if settings.maxDepth < e.depth then .error (.tooDeep settings.maxDepth)
  else e.value settings b

end Expr

end UnitCalc.Formula
