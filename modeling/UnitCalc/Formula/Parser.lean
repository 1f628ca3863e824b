import UnitCalc.Formula.Expr
import UnitCalc.Formula.Lexer
import UnitCalc.Formula.ParseError

/-!
# `UnitCalc.Formula.Parser` — formula text to tree

The grammar, one rule a line:

    expression     → additive
    additive       → multiplicative (("+" | "-") multiplicative)*
    multiplicative → unary (("*" | "/") unary)*
    unary          → "-" unary | power
    power          → primary ("^" unary)?
    primary        → number | name | "(" expression ")"
    name           → variable | constant | function call
    call           → "(" (expression ("," expression)*)? ")"

A rule is a value of `Rule`, and `Rule.step` is the body of all rules at once, given a parser for
the rules it uses. `Rule.within` ties the knot with a budget of nested calls.

Two checks keep a formula within a limit. Every formula, group, argument, negated operand and
exponent is one level of nesting, counted while it is read; and no tree that is built may be deeper
than the limit.

## Contents
- **Sessions.** `Gauge`, `Session`: the tokens still to read and the level of nesting.
- **Parsers.** `Stop`, `Parser` and its small steps.
- **Rules.** `Rule`, `Rule.step`, `Rule.within`.
- **Formulas.** `Session.parse`, which can be called again after an error, `parseUpTo`, `parse`.
-/

namespace UnitCalc.Formula

/-! ## Sessions -/

/-- A counter of levels that remembers the lowest and the highest level it has shown. -/
structure Gauge where
  level : Int
  lowest : Int
  highest : Int
deriving DecidableEq, Repr

namespace Gauge

/-- A gauge that has shown one level only. -/
def resting (level : Int) : Gauge := ⟨level, level, level⟩

def set (g : Gauge) (level : Int) : Gauge :=
  ⟨level, min g.lowest level, max g.highest level⟩

def enter (g : Gauge) : Gauge := g.set (g.level + 1)

def leave (g : Gauge) : Gauge := g.set (g.level - 1)

end Gauge

/-- A text that is being read. -/
structure Session where
  /-- The tokens not yet passed; the first one is the current one. -/
  rest : List Located
  /-- The byte offset of the end of the text. -/
  stop : Nat
  /-- How deep the part that is being read is nested. -/
  nesting : Gauge
deriving DecidableEq, Repr

namespace Session

/-- A text of which nothing has been read. -/
def ofText (s : String) : Session :=
  ⟨tokens s, byteLength s.toList, .resting 0⟩

/-- The current token. -/
def current (s : Session) : Token :=
  match s.rest with
  | [] => .stop
  | t :: _ => t.token

/-- The byte offset of the current token. -/
def position (s : Session) : Nat :=
  match s.rest with
  | [] => s.stop
  | t :: _ => t.start

/-- Passes the current token. The end of the text is never passed. -/
def advance (s : Session) : Session :=
  { s with rest := s.rest.tail }

end Session

/-! ## Parsers -/

/-- Why a parser stops without a tree. -/
inductive Stop where
  | error (e : ParseError)
  /-- More calls were nested in one another than the budget allows. -/
  | exhausted
deriving DecidableEq, Repr

/-- A parser reads part of a session. The session goes on also after an error. -/
def Parser (α : Type) : Type :=
  Session → Except Stop α × Session

namespace Parser

variable {α β : Type}

/-- Reads nothing. -/
def done (a : α) : Parser α :=
  fun s => (.ok a, s)

/-- Reads one part and, unless that fails, the next. -/
def andThen (p : Parser α) (f : α → Parser β) : Parser β :=
  fun s =>
    match p s with
    | (.ok a, s') => f a s'
    | (.error e, s') => (.error e, s')

instance : Monad Parser where
  pure := done
  bind := andThen

/-- The current token. -/
def current : Parser Token :=
  fun s => (.ok s.current, s)

/-- The byte offset of the current token. -/
def position : Parser Nat :=
  fun s => (.ok s.position, s)

/-- How many tokens are still to read. -/
def remaining : Parser Nat :=
  fun s => (.ok s.rest.length, s)

def advance : Parser Unit :=
  fun s => (.ok (), s.advance)

def failAt (fault : ParseFault) (position : Nat) : Parser α :=
  fun s => (.error (.error ⟨fault, position⟩), s)

/-- Fails at the current token. -/
def fail (fault : ParseFault) : Parser α :=
  fun s => (.error (.error ⟨fault, s.position⟩), s)

/-- Fails for want of calls. -/
def exhausted : Parser α :=
  fun s => (.error .exhausted, s)

/-- Reads one level deeper, or fails when that level lies beyond the limit. The level is given
    back whatever becomes of `p`, but not when the level itself is refused. -/
def nested (limit : Nat) (p : Parser α) : Parser α :=
  fun s =>
    let inner := { s with nesting := s.nesting.enter }
    if (limit : Int) < inner.nesting.level then fail (.nestsTooDeep limit) inner
    else
      match p inner with
      | (result, s') => (result, { s' with nesting := s'.nesting.leave })

/-- Accepts a tree that is not deeper than the limit. -/
def node (limit : Nat) (e : Expr) : Parser Expr :=
  if limit < e.depth then fail (.treeTooDeep limit) else done e

/-- Passes the `)` that ends a group. -/
def closeParen : Parser Unit := do
  match ← current with
  | .closeParen => advance
  | .stop => fail .missingClose
  | found => fail (.notClosed found)

/-- Operands and the operators between them, grouped from the left; `left` has been read already.
    Every turn passes an operator, so `turns` need not exceed the number of remaining tokens. -/
def chain (limit : Nat) (operator? : Token → Option BinOp) (operand : Parser Expr) :
    (turns : Nat) → (left : Expr) → Parser Expr
  | 0, left => done left
  | turns + 1, left => do
    match operator? (← current) with
    | none => done left
    | some op =>
      advance
      let right ← operand
      let left ← node limit (.binary op left right)
      chain limit operator? operand turns left

/-- The arguments after the first one, each behind a comma. -/
def moreArguments (argument : Parser Expr) : (turns : Nat) → Parser (List Expr)
  | 0 => done []
  | turns + 1 => do
    if (← current) = .comma then
      advance
      let e ← argument
      let es ← moreArguments argument turns
      done (e :: es)
    else done []

/-- The arguments of a call up to its `)`, which may be none. -/
def arguments (argument : Parser Expr) : Parser (List Expr) := do
  if (← current) = .closeParen then done []
  else
    let e ← argument
    let es ← moreArguments argument (← remaining)
    done (e :: es)

end Parser

/-! ## Rules -/

/-- The rules of the grammar. A name has been seen but not passed; a call has been passed up to its
    `(`, and remembers where its name stands. -/
inductive Rule where
  | expression | additive | multiplicative | unary | power | primary
  | name (text : String)
  | call (f : Func) (start : Nat)
deriving DecidableEq, Repr

/-- The operators of a sum. -/
def Token.additive? : Token → Option BinOp
  | .plus => some .add
  | .minus => some .sub
  | _ => none

/-- The operators of a product. -/
def Token.multiplicative? : Token → Option BinOp
  | .times => some .mul
  | .slash => some .div
  | _ => none

namespace Rule

open Formula.Parser

/-- The body of a rule, where `use` reads the rules it is made of. -/
def step (limit : Nat) (use : Rule → Parser Expr) : Rule → Parser Expr
  | expression => nested limit (use additive)
  | additive => do
    let left ← use multiplicative
    chain limit Token.additive? (use multiplicative) (← remaining) left
  | multiplicative => do
    let left ← use unary
    chain limit Token.multiplicative? (use unary) (← remaining) left
  | unary => do
    if (← current) = .minus then
      advance
      let operand ← nested limit (use unary)
      node limit (.neg operand)
    else use power
  | power => do
    let base ← use primary
    if (← current) = .caret then
      advance
      let exponent ← nested limit (use unary)
      node limit (.binary .pow base exponent)
    else done base
  | primary => do
    match ← current with
    | .number x =>
      if x.isFinite then
        advance
        done (.num x)
      else fail .numberOutOfRange
    | .name text => use (name text)
    | .openParen =>
      advance
      let e ← use expression
      closeParen
      done e
    | .stop => fail .endedEarly
    | .closeParen => fail .unexpectedClose
    | .illegal c => fail (.illegalCharacter c)
    | found => fail (.unexpected found)
  | name text =>
    match Var.ofName? text, Const.ofName? text, Func.ofName? text with
    | some v, _, _ => do
      advance
      done (.var v)
    | none, some c, _ => do
      advance
      done (.const c)
    | none, none, some f => do
      let start ← position
      advance
      if (← current) = .openParen then use (call f start) else fail (.notCalled f)
    | none, none, none => fail (.unknownName text)
  | call f start => do
    advance
    let args ← arguments (use expression)
    closeParen
    if f.arity.accepts args.length then node limit (.call f args)
    else failAt (.argumentCount f args.length) start

/-- A rule read with at most `budget` rules nested in one another. -/
def within (limit : Nat) : (budget : Nat) → Rule → Parser Expr
  | 0, _ => exhausted
  | budget + 1, rule => step limit (within limit budget) rule

end Rule

/-! ## Formulas -/

/-- A whole formula: an expression and nothing behind it. -/
def Parser.formula (limit budget : Nat) : Parser Expr := do
  if (← current) = .stop then fail .empty
  else
    let e ← Rule.expression.within limit budget
    match ← current with
    | .stop => done e
    | .closeParen => fail .unmatchedClose
    | found => fail (.trailing found)

namespace Session

/-- A budget that no session exhausts: between two nested expressions at least one token is
    passed, and at most eight rules are used. -/
def budget (s : Session) : Nat :=
  8 * (s.rest.length + 1)

/-- Reads the rest of a session as a formula. After an error it can be called again and goes on
    where the error was found; a level that was refused as too deep is then still counted. -/
def parse (limit : Nat) (s : Session) : Except ParseError Expr × Session :=
  match Parser.formula limit s.budget s with
  | (.ok e, s') => (.ok e, s')
  | (.error (.error e), s') => (.error e, s')
  | (.error .exhausted, s') => (.error ⟨.nestsTooDeep limit, s'.position⟩, s')

end Session

/-- The depth that is allowed where no other is asked for. -/
def defaultMaxDepth : Nat := 64

/-- The tree of a formula text that keeps within a limit. -/
def parseUpTo (limit : Nat) (s : String) : Except ParseError Expr :=
  ((Session.ofText s).parse limit).1

/-- The tree of a formula text that keeps within the default limit. -/
def parse (s : String) : Except ParseError Expr :=
  parseUpTo defaultMaxDepth s

end UnitCalc.Formula
