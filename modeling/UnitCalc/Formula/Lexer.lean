import UnitCalc.Decimal.Reading
import UnitCalc.Formula.Token
import UnitCalc.Text.Blank
import UnitCalc.Text.Span

/-!
# `UnitCalc.Formula.Lexer` — cutting formula text into tokens

The text is cut into lexemes with white space between them. Each lexeme is the longest one that
its first character can start: a number, a name, or a single character.

## Contents
- **Numbers.** `mantissaSpan`, `numberSpan`. An `e` belongs to a number only when
  an exponent really follows, so that `2e` is a number and a constant.
- **Lexemes.** `lexeme`, with `lexeme_append` and `lexeme_ne_nil`: nothing is lost, and each step
  consumes something.
- **Texts.** `scan`, `tokens`, and `stream`, which ends with `Token.stop`.
- **Token by token.** `Cursor`, `Cursor.next`.
-/

namespace UnitCalc.Formula

open Text (digitSpan digitSpan_append exponentSpan exponentSpan_append)

/-- Digits with at most one point among them, and what follows. -/
def mantissaSpan (cs : List Char) : List Char × List Char :=
  match digitSpan cs with
  | (whole, '.' :: r) => (whole ++ '.' :: (digitSpan r).1, (digitSpan r).2)
  | (whole, r) => (whole, r)

theorem mantissaSpan_append (cs : List Char) : (mantissaSpan cs).1 ++ (mantissaSpan cs).2 = cs := by
  have h := digitSpan_append cs
  unfold mantissaSpan
  split
  · next whole r eq => simp_all [digitSpan_append]
  · next whole r _ eq => simp_all

/-- A number, and what follows. -/
def numberSpan (cs : List Char) : List Char × List Char :=
  let rest := exponentSpan (mantissaSpan cs).2
  ((mantissaSpan cs).1 ++ rest.1, rest.2)

theorem numberSpan_append (cs : List Char) : (numberSpan cs).1 ++ (numberSpan cs).2 = cs := by
  simp [numberSpan, List.append_assoc, exponentSpan_append, mantissaSpan_append]

/-! ## Lexemes -/

/-- The character can start a name. -/
def isNameStart (c : Char) : Bool :=
  c.isAlpha || c == '_'

/-- The character can stand in a name. -/
def isNamePart (c : Char) : Bool :=
  isNameStart c || c.isDigit

/-- The character can start a number. -/
def isNumberStart (c : Char) : Bool :=
  c.isDigit || c == '.'

/-- The longest lexeme at the head of `c :: cs`, and what follows it. -/
def lexeme (c : Char) (cs : List Char) : List Char × List Char :=
  if isNumberStart c then numberSpan (c :: cs)
  else if isNameStart c then (c :: cs.takeWhile isNamePart, cs.dropWhile isNamePart)
  else ([c], cs)

/-- A lexeme and what follows it are the text itself. -/
theorem lexeme_append (c : Char) (cs : List Char) :
    (lexeme c cs).1 ++ (lexeme c cs).2 = c :: cs := by
  unfold lexeme
  split
  · exact numberSpan_append _
  · split <;> simp

theorem mantissaSpan_ne_nil {c : Char} {cs : List Char} (h : isNumberStart c = true) :
    (mantissaSpan (c :: cs)).1 ≠ [] := by
  by_cases digit : c.isDigit = true
  · have keeps : (digitSpan (c :: cs)).1 ≠ [] := by simp [digitSpan, digit]
    unfold mantissaSpan
    split <;> simp_all
  · have point : c = '.' := by simpa [isNumberStart, digit] using h
    subst point
    simp [mantissaSpan, digitSpan]

/-- No lexeme is empty. -/
theorem lexeme_ne_nil (c : Char) (cs : List Char) : (lexeme c cs).1 ≠ [] := by
  unfold lexeme
  split
  · next h => simp [numberSpan, mantissaSpan_ne_nil h]
  · split <;> simp

/-- What follows a lexeme is shorter than the text. -/
theorem length_lexeme_lt (c : Char) (cs : List Char) :
    (lexeme c cs).2.length < (c :: cs).length := by
  have whole := congrArg List.length (lexeme_append c cs)
  have some_char := List.length_pos_iff.2 (lexeme_ne_nil c cs)
  rw [List.length_append] at whole
  omega

/-- The token that a lexeme with first character `c` stands for. -/
def Token.ofLexeme (c : Char) (word : List Char) : Token :=
  match c with
  | '+' => .plus
  | '-' => .minus
  | '*' => .times
  | '/' => .slash
  | '^' => .caret
  | '(' => .openParen
  | ')' => .closeParen
  | ',' => .comma
  | c =>
    if isNumberStart c then
      match Decimal.ofChars? word with
      | some d => .number d.toFloat
      | none => .illegal c
    else if isNameStart c then .name (String.ofList (word.map Char.toLower))
    else .illegal c

/-! ## Texts -/

/-- The number of bytes of a text. -/
def byteLength (cs : List Char) : Nat :=
  cs.foldr (fun c n => c.utf8Size + n) 0

/-- The tokens of a text whose first character has the byte offset `start`. -/
def scan (start : Nat) : List Char → List Located
  | [] => []
  | c :: cs =>
    if Text.isBlank c then scan (start + c.utf8Size) cs
    else
      ⟨Token.ofLexeme c (lexeme c cs).1, start⟩ ::
        scan (start + byteLength (lexeme c cs).1) (lexeme c cs).2
termination_by cs => cs.length
decreasing_by
  · simp
  · exact length_lexeme_lt c cs

/-- The tokens of a text. -/
def tokens (s : String) : List Located :=
  scan 0 s.toList

/-- The tokens of a text and, at the byte offset of its end, `Token.stop`. -/
def stream (s : String) : List Located :=
  tokens s ++ [⟨.stop, byteLength s.toList⟩]

/-! ## Token by token -/

/-- A place in a text that is being cut. -/
structure Cursor where
  /-- What has not been cut yet. -/
  rest : List Char
  /-- The byte offset of the place. -/
  start : Nat
deriving DecidableEq, Repr

namespace Cursor

/-- The place before a text. -/
def ofText (s : String) : Cursor :=
  ⟨s.toList, 0⟩

/-- Skips white space and cuts one token off the characters at the byte offset `start`. -/
def nextFrom (start : Nat) : List Char → Located × Cursor
  | [] => (⟨.stop, start⟩, ⟨[], start⟩)
  | c :: cs =>
    if Text.isBlank c then nextFrom (start + c.utf8Size) cs
    else
      (⟨Token.ofLexeme c (lexeme c cs).1, start⟩,
        ⟨(lexeme c cs).2, start + byteLength (lexeme c cs).1⟩)

/-- The next token and the place behind it. The token at the end of the text is `Token.stop`, and no
    place lies behind the end. -/
def next (cursor : Cursor) : Located × Cursor :=
  nextFrom cursor.start cursor.rest

end Cursor

end UnitCalc.Formula
