import UnitCalc.Decimal.Notation
import UnitCalc.Formula.Expr

/-!
# `UnitCalc.Formula.Printer` — a tree as formula text

A tree is written with as few parentheses as its reading back allows. Every node has a binding
strength, every operand position asks for a least one, and an operand that binds more loosely
stands in parentheses.

## Contents
- **Strength.** `Expr.precedence`.
- **Text.** `Expr.render`, `Expr.text`.
-/

namespace UnitCalc.Formula.Expr

/-- How tightly a node binds. A literal that is written with a minus sign binds like a negation. -/
def precedence : Expr → Nat
  | binary op _ _ => op.precedence
  | neg _ => negationPrecedence
  | num x => if Double.isNegative x then negationPrecedence else atomPrecedence
  | var _ | const _ | call _ _ => atomPrecedence

/-- The least strength the left operand of an operator needs to stand without parentheses. -/
def leftPrecedence : BinOp → Nat
  | .pow => atomPrecedence
  | op => op.precedence

/-- The least strength the right operand of an operator needs to stand without parentheses. Powers
    associate to the right and may have a negated exponent, the other operators to the left. -/
def rightPrecedence : BinOp → Nat
  | .pow => negationPrecedence
  | op => op.precedence + 1

/-- Puts a written operand in parentheses when it binds more loosely than `least`. -/
def group (least : Nat) (operand : Expr) (written : List Char) : List Char :=
  if operand.precedence < least then '(' :: written ++ [')'] else written

mutual

/-- The characters of a tree. -/
def render : Expr → List Char
  | num x => Double.chars x
  | var v => v.name.toList
  | const c => c.name.toList
  | neg operand => '-' :: group negationPrecedence operand operand.render
  | binary op left right =>
    group (leftPrecedence op) left left.render ++ [' ', op.sign, ' '] ++
      group (rightPrecedence op) right right.render
  | call f args => f.name.toList ++ '(' :: renderAll args ++ [')']

/-- The characters of a list of arguments, with a comma and a space between two of them. -/
def renderAll : List Expr → List Char
  | [] => []
  | [e] => e.render
  | e :: es => e.render ++ [',', ' '] ++ renderAll es

end

/-- The formula text of a tree. -/
def text (e : Expr) : String :=
  String.ofList e.render

end UnitCalc.Formula.Expr
