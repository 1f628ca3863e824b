/-!
# `UnitCalc.Uuid` — identifiers

Categories, units and formulas are told apart by universally unique identifiers of 32 hexadecimal
digits. Nothing in them is interpreted; they are compared, read and written.

## Contents
- **Digits.** `Uuid.digit`, `Uuid.digitChar`, `Uuid.digitOfChar?`.
- **Text.** `Uuid.text` writes groups with hyphens between them; `Uuid.ofText?` reads that form, in
  braces or as a URN too, and the bare digits.
-/

namespace UnitCalc

/-- An identifier of 128 bits, as its hexadecimal digits. -/
structure Uuid where
  digits : Vector (Fin 16) 32
deriving DecidableEq, Repr

namespace Uuid

instance : Inhabited Uuid := ⟨⟨Vector.replicate 32 0⟩⟩

/-- The identifier of nothing. -/
def nil : Uuid := ⟨Vector.replicate 32 0⟩

/-- The identifier of ones only. -/
def max : Uuid := ⟨Vector.replicate 32 15⟩

/-! ## Text -/

/-- The lowest hexadecimal digit of a number. -/
def digit (n : Nat) : Fin 16 :=
  Fin.ofNat 16 n

/-- A digit in lower case. -/
def digitChar (d : Fin 16) : Char :=
  Nat.digitChar d.val

/-- The value of a hexadecimal digit in either case. -/
def digitOfChar? (c : Char) : Option (Fin 16) :=
  let n := c.toNat
  if 48 ≤ n ∧ n ≤ 57 then some (digit (n - 48))
  else if 97 ≤ n ∧ n ≤ 102 then some (digit (n - 87))
  else if 65 ≤ n ∧ n ≤ 70 then some (digit (n - 55))
  else none

/-- The sizes of the groups between hyphens, but for the last one. -/
def groupSizes : List Nat := [8, 4, 4, 4]

/-- Puts a hyphen behind each group. -/
def group : List Nat → List Char → List Char
  | [], cs => cs
  | n :: ns, cs => cs.take n ++ '-' :: group ns (cs.drop n)

/-- Takes away the hyphen behind each group. -/
def ungroup? : List Nat → List Char → Option (List Char)
  | [], cs => some cs
  | n :: ns, cs =>
    match cs.drop n with
    | '-' :: rest => (ungroup? ns rest).map (cs.take n ++ ·)
    | _ => none

def chars (id : Uuid) : List Char :=
  group groupSizes (id.digits.toList.map digitChar)

/-- The groups with hyphens between them, in lower case. -/
def text (id : Uuid) : String :=
  String.ofList id.chars

/-- Exactly 32 digits and nothing else. -/
def ofDigits? (cs : List Char) : Option Uuid :=
  match cs.mapM digitOfChar? with
  | none => none
  | some ds => if h : ds.length = 32 then some ⟨⟨ds.toArray, by simpa using h⟩⟩ else none

/-- The groups with hyphens between them. -/
def ofGroups? (cs : List Char) : Option Uuid :=
  (ungroup? groupSizes cs).bind ofDigits?

/-- What the name of an identifier as a URN begins with. -/
def urnPrefix : List Char := "urn:uuid:".toList

/-- Takes away braces around a text, or a URN prefix before it. -/
def unwrap (cs : List Char) : List Char :=
  if cs.head? = some '\x7b' ∧ cs.getLast? = some '\x7d' then cs.tail.dropLast
  else if urnPrefix.isPrefixOf cs then cs.drop urnPrefix.length
  else cs

/-- Reads an identifier in any of its written forms. -/
def ofText? (s : String) : Option Uuid :=
  let cs := s.toList
  if cs.length = 32 then ofDigits? cs else ofGroups? (unwrap cs)

end Uuid

end UnitCalc
