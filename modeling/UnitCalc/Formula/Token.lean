import UnitCalc.Decimal.Notation

/-!
# `UnitCalc.Formula.Token` — the words of formula text

## Contents
- **Tokens.** `Token`, and `Token.text`, by which messages name them.
- **Places.** `Located`: a token with the byte offset at which it starts.
-/

namespace UnitCalc.Formula

/-- A word of formula text. -/
inductive Token where
  | number (value : Float)
  /-- A name in lower case. -/
  | name (text : String)
  | plus | minus | times | slash | caret
  | openParen | closeParen | comma
  /-- What stands behind the last word. -/
  | stop
  /-- A character that starts no word. -/
  | illegal (c : Char)
deriving DecidableEq, Repr

namespace Token

/-- The token as messages name it. -/
def text : Token → String
  | number x => Double.text x
  | name s => s
  | plus => "+"
  | minus => "-"
  | times => "*"
  | slash => "/"
  | caret => "^"
  | openParen => "("
  | closeParen => ")"
  | comma => ","
  | stop => "end of input"
  | illegal c => s!"ILLEGAL({c})"

end Token

/-- A token and the byte offset of its first character. -/
structure Located where
  token : Token
  start : Nat
deriving DecidableEq, Repr

end UnitCalc.Formula
