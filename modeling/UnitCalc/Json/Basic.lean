/-!
# `UnitCalc.Json.Basic` — JSON values

A JSON value as it stands in a text: numbers keep their spelling, and members their order and
their repetitions. A string is either a text or, when its escapes name half of a surrogate pair,
no text at all; both are JSON.

## Contents
- **Values.** `Json`.
- **Small values.** `Json.ofNat`, `Json.ofString`, `Json.member`.
-/

namespace UnitCalc

/-- A JSON value. -/
inductive Json where
  | null
  | bool (b : Bool)
  /-- A number as it is spelled. -/
  | num (spelling : String)
  /-- A string, `none` when it holds half a surrogate pair. -/
  | str (text : Option String)
  | arr (items : List Json)
  /-- An object; the name of a member is a string like any other. -/
  | obj (members : List (Option String × Json))
deriving Repr

namespace Json

instance : Inhabited Json := ⟨null⟩

def ofNat (n : Nat) : Json :=
  num (String.ofList (Nat.toDigits 10 n))

def ofString (s : String) : Json :=
  str (some s)

/-- A member whose name is a text. -/
def member (name : String) (value : Json) : Option String × Json :=
  (some name, value)

/-- The white space of JSON. -/
def isSpace (c : Char) : Bool :=
  c == ' ' || c == '\n' || c == '\t' || c == '\r'

end Json

end UnitCalc
