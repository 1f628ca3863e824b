import UnitCalc.Json.Basic
import UnitCalc.Json.Literal

/-!
# `UnitCalc.Json.Printer` — JSON values as text

Two layouts of the same value: *compact*, without white space, and *pretty*, with one item or
member a line, two more spaces of indentation inside each bracket, and no space inside empty ones.

## Contents
- **Leaves.** `nameChars`.
- **Compact.** `Json.compact`.
- **Pretty.** `Json.pretty`.
-/

namespace UnitCalc.Json

/-- A string. One that is no text is half a surrogate pair. -/
def nameChars : Option String → List Char
  | some s => quote s
  | none => "\"\\ud800\"".toList

mutual

def compactChars : Json → List Char
  | null => "null".toList
  | bool b => if b then "true".toList else "false".toList
  | num spelling => spelling.toList
  | str s => nameChars s
  | arr items => '[' :: compactItems items ++ [']']
  | obj members => '\x7b' :: compactMembers members ++ ['\x7d']

def compactItems : List Json → List Char
  | [] => []
  | [j] => compactChars j
  | j :: js => compactChars j ++ ',' :: compactItems js

def compactMembers : List (Option String × Json) → List Char
  | [] => []
  | [(name, j)] => nameChars name ++ ':' :: compactChars j
  | (name, j) :: ms => nameChars name ++ ':' :: compactChars j ++ ',' :: compactMembers ms

end

/-- A value in one line without white space. -/
def compact (j : Json) : String :=
  String.ofList (compactChars j)

/-- The start of a line inside `depth` brackets. -/
def newLine (depth : Nat) : List Char :=
  '\n' :: List.replicate (2 * depth) ' '

mutual

/-- A value that stands inside `depth` brackets. -/
def prettyChars (depth : Nat) : Json → List Char
  | null => "null".toList
  | bool b => if b then "true".toList else "false".toList
  | num spelling => spelling.toList
  | str s => nameChars s
  | arr items =>
    if items.isEmpty then ['[', ']']
    else '[' :: prettyItems (depth + 1) items ++ newLine depth ++ [']']
  | obj members =>
    if members.isEmpty then ['\x7b', '\x7d']
    else '\x7b' :: prettyMembers (depth + 1) members ++ newLine depth ++ ['\x7d']

def prettyItems (depth : Nat) : List Json → List Char
  | [] => []
  | [j] => newLine depth ++ prettyChars depth j
  | j :: js => newLine depth ++ prettyChars depth j ++ ',' :: prettyItems depth js

def prettyMembers (depth : Nat) : List (Option String × Json) → List Char
  | [] => []
  | [(name, j)] => newLine depth ++ nameChars name ++ ':' :: ' ' :: prettyChars depth j
  | (name, j) :: ms =>
    newLine depth ++ nameChars name ++ ':' :: ' ' :: prettyChars depth j ++
      ',' :: prettyMembers depth ms

end

/-- A value over several lines. -/
def pretty (j : Json) : String :=
  String.ofList (prettyChars 0 j)

end UnitCalc.Json
