import UnitCalc.Formula.Token
import UnitCalc.Formula.Symbol

/-!
# `UnitCalc.Formula.ParseError` — why a text is no formula

A parse error is a fault and the byte offset at which it was found.

## Contents
- **Faults.** `ParseFault`, their `ParseKind`, and their texts.
- **Errors.** `ParseError`, `ParseError.message`.
-/

namespace UnitCalc.Formula

/-- What is wrong with a text. -/
inductive ParseFault where
  /-- There is no token at all. -/
  | empty
  /-- A `)` that no `(` opened follows the formula. -/
  | unmatchedClose
  /-- Some other token follows the formula. -/
  | trailing (found : Token)
  /-- The text ends inside a group. -/
  | missingClose
  /-- A group goes on where it should end. -/
  | notClosed (found : Token)
  /-- A number larger than every finite double. -/
  | numberOutOfRange
  /-- The text ends where an operand should stand. -/
  | endedEarly
  /-- A `)` where an operand should stand. -/
  | unexpectedClose
  /-- A character that belongs to no token. -/
  | illegalCharacter (c : Char)
  /-- Some other token where an operand should stand. -/
  | unexpected (found : Token)
  /-- A function that is not called. -/
  | notCalled (f : Func)
  /-- A name that means nothing. -/
  | unknownName (name : String)
  /-- A call with a number of arguments that the function does not accept. -/
  | argumentCount (f : Func) (got : Nat)
  /-- Groups, arguments, negations and exponents nest beyond the limit. -/
  | nestsTooDeep (limit : Nat)
  /-- The tree of a part of the text is deeper than the limit. -/
  | treeTooDeep (limit : Nat)
deriving DecidableEq, Repr

/-- The kinds of faults that a caller may tell apart. -/
inductive ParseKind where
  | unexpectedToken | unbalancedParens | unknownIdentifier | emptyExpression | argumentCount
  | tooDeep
deriving DecidableEq, Repr

namespace ParseFault

def kind : ParseFault → ParseKind
  | empty => .emptyExpression
  | unmatchedClose | missingClose | unexpectedClose => .unbalancedParens
  | trailing _ | notClosed _ | numberOutOfRange | endedEarly | illegalCharacter _ | unexpected _
  | notCalled _ => .unexpectedToken
  | unknownName _ => .unknownIdentifier
  | argumentCount _ _ => .argumentCount
  | nestsTooDeep _ | treeTooDeep _ => .tooDeep

def text : ParseFault → String
  | empty => "Empty expression"
  | unmatchedClose => "Unmatched ')'"
  | trailing t => s!"Unexpected token after expression: '{t.text}'"
  | missingClose => "Missing ')'"
  | notClosed t => s!"Expected ')', found '{t.text}'"
  | numberOutOfRange => "Number out of range"
  | endedEarly => "Unexpected end of expression"
  | unexpectedClose => "Unexpected ')'"
  | illegalCharacter c => s!"Illegal character: '{c}'"
  | unexpected t => s!"Unexpected token: '{t.text}'"
  | notCalled f => s!"Function '{f.name}' must be followed by '('"
  | unknownName name => s!"Unknown identifier: '{name}'"
  | argumentCount f got => s!"{f.name}() takes {f.arity.text}, got {got}"
  | nestsTooDeep limit => s!"Expression nests deeper than {limit} levels"
  | treeTooDeep limit => s!"Expression is deeper than {limit} levels"

end ParseFault

/-- A fault and where it was found. -/
structure ParseError where
  fault : ParseFault
  /-- Byte offset into the text. -/
  position : Nat
deriving DecidableEq, Repr

namespace ParseError

def kind (e : ParseError) : ParseKind :=
  e.fault.kind

def message (e : ParseError) : String :=
  s!"Parse error at {e.position}: {e.fault.text}"

end ParseError

end UnitCalc.Formula
