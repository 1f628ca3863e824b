import UnitCalc.Formula.EvalError

/-!
# `UnitCalc.Formula.Bindings` — values for the variables

Bindings give some of the variables a value. They are built by setting one variable after another,
a later value replacing an earlier one.

## Contents
- **Bindings.** `Bindings`, `get`, `set`, with `get_set`.
- **From lists.** `ofList`, and `ofNames`, where names are matched without regard to case.
-/

namespace UnitCalc.Formula

/-- A value or nothing for each variable. -/
structure Bindings where
  x : Option Float := none
  y : Option Float := none
  z : Option Float := none
deriving DecidableEq, Repr

namespace Bindings

/-- No variable has a value. -/
def empty : Bindings := {}

def get (b : Bindings) : Var → Option Float
  | .x => b.x
  | .y => b.y
  | .z => b.z

def set (b : Bindings) (v : Var) (value : Float) : Bindings :=
  match v with
  | .x => { b with x := some value }
  | .y => { b with y := some value }
  | .z => { b with z := some value }

/-- A variable has the value it was set to, and setting it leaves the others alone. -/
theorem get_set (b : Bindings) (v w : Var) (value : Float) :
    (b.set v value).get w = if w = v then some value else b.get w := by
  cases v <;> cases w <;> rfl

/-- Only `x` has a value. -/
def ofX (value : Float) : Bindings :=
  empty.set .x value

/-- All variables have a value. -/
def ofXYZ (x y z : Float) : Bindings :=
  ⟨some x, some y, some z⟩

/-- Sets variables in the order of a list. -/
def ofList (values : List (Var × Float)) : Bindings :=
  values.foldl (fun b (v, value) => b.set v value) empty

/-- Sets variables by name, in the order of a list and in either case. The first name that belongs
    to no variable is an error. -/
def setNames (b : Bindings) : List (String × Float) → Except EvalError Bindings
  | [] => .ok b
  | (name, value) :: rest =>
    match Var.ofName? (name.map Char.toLower) with
    | some v => setNames (b.set v value) rest
    | none => .error (.unknownVariable name)

/-- Bindings from names and values. -/
def ofNames (values : List (String × Float)) : Except EvalError Bindings :=
  empty.setNames values

end Bindings

end UnitCalc.Formula
