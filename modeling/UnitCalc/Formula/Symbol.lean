/-!
# `UnitCalc.Formula.Symbol` — the names and signs of formulas

A formula may use three variables, two constants, five operators and a closed list of functions.
Each kind of symbol is a type; its names are given once, and looked up by the one function that
inverts them.

## Contents
- **Variables and constants.** `Var`, `Const`.
- **Operators.** `BinOp` with `BinOp.precedence`; negation stands at `negationPrecedence`.
- **Functions.** `Func`, and `Arity`, the argument counts a function accepts.
-/

namespace UnitCalc.Formula

/-! ## Variables and constants -/

/-- The free variables of a formula. -/
inductive Var where
  | x | y | z
deriving DecidableEq, Repr

namespace Var

/-- All variables in their order. -/
def all : List Var := [x, y, z]

def name : Var → String
  | x => "x"
  | y => "y"
  | z => "z"

/-- The variable with a name in lower case. -/
def ofName? (s : String) : Option Var :=
  all.find? fun v => v.name = s

end Var

/-- The named constants. -/
inductive Const where
  | pi | e
deriving DecidableEq, Repr

namespace Const

/-- All constants in their order. -/
def all : List Const := [pi, e]

/-- The name a formula is written with. -/
def name : Const → String
  | pi => "PI"
  | e => "E"

/-- The name in lower case, as it is looked up. -/
def key : Const → String
  | pi => "pi"
  | e => "e"

/-- The constant with a name in lower case. -/
def ofName? (s : String) : Option Const :=
  all.find? fun c => c.key = s

/-- The double nearest to the constant. -/
def value : Const → Float
  | pi => 3.141592653589793
  | e => 2.718281828459045

end Const

/-! ## Operators -/

/-- The operators between two operands. -/
inductive BinOp where
  | add | sub | mul | div | pow
deriving DecidableEq, Repr

namespace BinOp

/-- All operators in their order. -/
def all : List BinOp := [add, sub, mul, div, pow]

def sign : BinOp → Char
  | add => '+'
  | sub => '-'
  | mul => '*'
  | div => '/'
  | pow => '^'

/-- Binding strength; a higher one binds tighter. -/
def precedence : BinOp → Nat
  | add | sub => 1
  | mul | div => 2
  | pow => 4

end BinOp

/-- Negation binds tighter than multiplication and looser than a power. -/
def negationPrecedence : Nat := 3

/-- Numbers, names, calls and groups bind tightest. -/
def atomPrecedence : Nat := 5

/-! ## Functions -/

/-- How many arguments a function accepts. -/
inductive Arity where
  | exactly (n : Nat)
  | between (least most : Nat)
  | atLeast (least : Nat)
deriving DecidableEq, Repr

namespace Arity

def accepts : Arity → Nat → Bool
  | exactly n, count => count == n
  | between least most, count => least ≤ count && count ≤ most
  | atLeast least, count => least ≤ count

def text : Arity → String
  | exactly 1 => "1 argument"
  | exactly n => s!"{n} arguments"
  | between least most => s!"{least} to {most} arguments"
  | atLeast least => s!"at least {least} arguments"

end Arity

/-- The functions that a formula may call. -/
inductive Func where
  | sqrt | cbrt | pow | exp | log | log10
  | sin | cos | tan | asin | acos | atan | atan2
  | abs | floor | ceil | round | max | min
deriving DecidableEq, Repr

namespace Func

/-- All functions in their order. -/
def all : List Func :=
  [sqrt, cbrt, pow, exp, log, log10, sin, cos, tan, asin, acos, atan, atan2,
   abs, floor, ceil, round, max, min]

def name : Func → String
  | sqrt => "sqrt"
  | cbrt => "cbrt"
  | pow => "pow"
  | exp => "exp"
  | log => "log"
  | log10 => "log10"
  | sin => "sin"
  | cos => "cos"
  | tan => "tan"
  | asin => "asin"
  | acos => "acos"
  | atan => "atan"
  | atan2 => "atan2"
  | abs => "abs"
  | floor => "floor"
  | ceil => "ceil"
  | round => "round"
  | max => "max"
  | min => "min"

/-- The function with a name in lower case. -/
def ofName? (s : String) : Option Func :=
  all.find? fun f => f.name = s

/-- `round` takes a number of decimal places as an optional second argument, `max` and `min` any
    number of arguments from two on. -/
def arity : Func → Arity
  | pow | atan2 => .exactly 2
  | round => .between 1 2
  | max | min => .atLeast 2
  | _ => .exactly 1

end Func

end UnitCalc.Formula
