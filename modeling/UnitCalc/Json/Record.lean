import UnitCalc.Json.Number
import UnitCalc.Json.Reader

/-!
# `UnitCalc.Json.Record` — records and their fields

A record with declared fields is written as an object, or as an array of the fields in their order.
In an object, members with other names are passed over and a declared field may stand once only; an
array may be shorter than the record, but not longer.

## Contents
- **Leaves.** `bool?`, `text?`, `nat?`, `word?`, `float?`, `list?`.
- **Fields.** `fields?`, and `required?`, `optional?` for single fields.
- **Choices.** `choice?`: a name out of a few.
-/

namespace UnitCalc.Json

/-! ## Leaves -/

def bool? : Json → Option Bool
  | bool b => some b
  | _ => none

/-- A string that is a text. -/
def text? : Json → Option String
  | str s => s
  | _ => none

/-- A natural number up to `most`, spelled with digits only. -/
def nat? (most : Nat) : Json → Option Nat
  | num spelling =>
    match Decimal.natOfChars? spelling.toList with
    | some n => if n ≤ most then some n else none
    | none => none
  | _ => none

/-- A natural number of 32 bits. -/
def word? (j : Json) : Option UInt32 :=
  (j.nat? (UInt32.size - 1)).map UInt32.ofNat

/-- The double nearest to a number, unless the number is larger than every finite double. -/
def float? : Json → Option Float
  | num spelling =>
    match Double.ofText? spelling with
    | some x => if x.isFinite then some x else none
    | none => none
  | _ => none

/-- An array of values of one kind. -/
def list? {α : Type} (item? : Json → Option α) : Json → Option (List α)
  | arr items => items.mapM item?
  | _ => none

/-! ## Fields -/

/-- The value of a member, if it stands in an object at most once. -/
def member? (members : List (Option String × Json)) (name : String) : Option (Option Json) :=
  match members.filter fun m => m.1 = some name with
  | [] => some none
  | [m] => some (some m.2)
  | _ => none

/-- The fields of a record in their order, `none` for each one that is left out. -/
def fields? (names : List String) : Json → Option (List (Option Json))
  | obj members =>
    if members.all fun m => m.1.isSome then names.mapM (member? members) else none
  | arr items =>
    if items.length ≤ names.length then
      some (items.map some ++ List.replicate (names.length - items.length) none)
    else none
  | _ => none

variable {α : Type}

/-- A field that may not be left out. -/
def required? (value? : Json → Option α) : Option Json → Option α
  | some j => value? j
  | none => none

/-- A field with a value of its own when it is left out. -/
def optional? (value? : Json → Option α) (default : α) : Option Json → Option α
  | some j => value? j
  | none => some default

/-- A value that may be `null`. -/
def nullable? (value? : Json → Option α) : Json → Option (Option α)
  | null => some none
  | j => (value? j).map some

/-! ## Choices -/

/-- One of some named values: its name, or an object with that one name and `null`. -/
def choice? (values : List (String × α)) (j : Json) : Option α :=
  let named (name : Option String) := (values.find? fun v => some v.1 = name).map Prod.snd
  match j with
  | str name => named name
  | obj [(name, null)] => named name
  | _ => none

end UnitCalc.Json
