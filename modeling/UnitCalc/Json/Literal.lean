/-!
# `UnitCalc.Json.Literal` — string literals

A string literal is written between double quotes. Escapes name UTF-16 units, so that a character
beyond the first plane takes two escapes, the halves of a surrogate pair. A literal in which half a
pair stands alone is well formed, and names no text.

## Contents
- **Writing.** `escape`, `quote`.
- **Escapes.** `unitOfHex?`, `charOfEscape?`.
- **Reading.** `Reading` collects characters and units; `readLiteral?` reads up to the closing quote.
-/

namespace UnitCalc.Json

/-! ## Writing -/

/-- Two hexadecimal digits in lower case. -/
def hexPair (n : Nat) : List Char :=
  [Nat.digitChar (n / 16 % 16), Nat.digitChar (n % 16)]

/-- A character inside a literal: quotes, backslashes and control characters are escaped. -/
def escape (c : Char) : List Char :=
  match c with
  | '"' => ['\\', '"']
  | '\\' => ['\\', '\\']
  | '\x08' => ['\\', 'b']
  | '\x0c' => ['\\', 'f']
  | '\n' => ['\\', 'n']
  | '\r' => ['\\', 'r']
  | '\t' => ['\\', 't']
  | c => if c.toNat < 0x20 then ['\\', 'u', '0', '0'] ++ hexPair c.toNat else [c]

/-- A literal for a text. -/
def quote (s : String) : List Char :=
  '"' :: s.toList.flatMap escape ++ ['"']

/-! ## Escapes -/

/-- The value of a hexadecimal digit in either case. -/
def hexValue? (c : Char) : Option Nat :=
  let n := c.toNat
  if 48 ≤ n ∧ n ≤ 57 then some (n - 48)
  else if 97 ≤ n ∧ n ≤ 102 then some (n - 87)
  else if 65 ≤ n ∧ n ≤ 70 then some (n - 55)
  else none

/-- The UTF-16 unit that four hexadecimal digits name. -/
def unitOfHex? (a b c d : Char) : Option Nat := do
  return (((← hexValue? a) * 16 + (← hexValue? b)) * 16 + (← hexValue? c)) * 16 + (← hexValue? d)

/-- The character of an escape of one letter. -/
def charOfEscape? : Char → Option Char
  | '"' => some '"'
  | '\\' => some '\\'
  | '/' => some '/'
  | 'b' => some '\x08'
  | 'f' => some '\x0c'
  | 'n' => some '\n'
  | 'r' => some '\r'
  | 't' => some '\t'
  | _ => none

/-! ## Reading -/

/-- The unit is the first half of a surrogate pair. -/
def isHighHalf (n : Nat) : Bool :=
  0xd800 ≤ n && n ≤ 0xdbff

/-- The unit is the second half of a surrogate pair. -/
def isLowHalf (n : Nat) : Bool :=
  0xdc00 ≤ n && n ≤ 0xdfff

/-- The part of a literal that has been read. -/
structure Reading where
  /-- The characters, the last one first. -/
  chars : List Char := []
  /-- The first half of a pair that waits for the second one. -/
  high : Option Nat := none
  /-- Some half stands alone. -/
  broken : Bool := false

namespace Reading

/-- A character follows. -/
def char (r : Reading) (c : Char) : Reading :=
  { chars := c :: r.chars, high := none, broken := r.broken || r.high.isSome }

/-- An escaped unit follows. -/
def unit (r : Reading) (n : Nat) : Reading :=
  match r.high with
  | some h =>
    if isLowHalf n then
      { r with
        chars := Char.ofNat (0x10000 + (h - 0xd800) * 0x400 + (n - 0xdc00)) :: r.chars
        high := none }
    else if isHighHalf n then { r with high := some n, broken := true }
    else { chars := Char.ofNat n :: r.chars, high := none, broken := true }
  | none =>
    if isHighHalf n then { r with high := some n }
    else if isLowHalf n then { r with broken := true }
    else { r with chars := Char.ofNat n :: r.chars }

/-- The text that has been read, if it is one. -/
def text (r : Reading) : Option String :=
  if r.broken || r.high.isSome then none else some (String.ofList r.chars.reverse)

end Reading

/-- Reads a literal up to its closing quote, after which the rest of the text is given. A control
    character inside a literal has to be escaped. -/
def readLiteral? (r : Reading) : List Char → Option (Option String × List Char)
  | [] => none
  | '"' :: cs => some (r.text, cs)
  | '\\' :: 'u' :: a :: b :: c :: d :: cs =>
    match unitOfHex? a b c d with
    | some n => readLiteral? (r.unit n) cs
    | none => none
  | '\\' :: e :: cs =>
    match charOfEscape? e with
    | some c => readLiteral? (r.char c) cs
    | none => none
  | c :: cs => if c = '\\' ∨ c.toNat < 0x20 then none else readLiteral? (r.char c) cs

end UnitCalc.Json
