import UnitCalc.Formula.Eval
import UnitCalc.Formula.Printer

/-!
# `UnitCalc.Formula.Compiled` — formulas ready to use

A compiled formula keeps its text beside its tree, so that it can be evaluated many times without
being read again, and shows itself as it was written.

## Contents
- **Compiled formulas.** `Compiled`, `compile`, `Compiled.eval`.
- **In one step.** `evaluate`, `validate`.
-/

namespace UnitCalc.Formula

/-- A formula text and its tree. -/
structure Compiled where
  source : String
  tree : Expr
deriving Repr

/-- Reads a formula within the depth limit of the settings. -/
def compile (settings : Settings) (source : String) : Except FormulaError Compiled :=
  match parseUpTo settings.maxDepth source with
  | .ok tree => .ok ⟨source, tree⟩
  | .error e => .error (.parse e)

/-- Evaluates a compiled formula. -/
def Compiled.eval (settings : Settings) (b : Bindings) (f : Compiled) :
    Except FormulaError Float :=
  match f.tree.eval settings b with
  | .ok x => .ok x
  | .error e => .error (.eval e)

/-- Reads and evaluates a formula. -/
def evaluate (settings : Settings) (b : Bindings) (source : String) : Except FormulaError Float :=
  match compile settings source with
  | .ok f => f.eval settings b
  | .error e => .error e

/-- A formula is usable when it has a value with every variable set to one. -/
def validate (source : String) : Except FormulaError Unit :=
  match evaluate {} (.ofXYZ 1 1 1) source with
  | .ok _ => .ok ()
  | .error e => .error e

end UnitCalc.Formula
