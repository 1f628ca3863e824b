import UnitCalc.Formula.Settings
import UnitCalc.Json.Printer
import UnitCalc.Json.Record

/-!
# `UnitCalc.Document.Settings` — settings as JSON

Every field has a default, so that an empty object stands for the default settings.
-/

namespace UnitCalc.Document

open Formula Json

def divisionNames : List (String × DivisionByZero) :=
  [("error", .error), ("ieee754", .ieee754)]

def unboundNames : List (String × UnboundVariables) :=
  [("error", .error), ("zero", .zero)]

def divisionName : DivisionByZero → String
  | .error => "error"
  | .ieee754 => "ieee754"

def unboundName : UnboundVariables → String
  | .error => "error"
  | .zero => "zero"

/-- The largest depth that a document can ask for. -/
def largestDepth : Nat := UInt64.size - 1

def settingsFields : List String :=
  ["max_depth", "division_by_zero", "unbound_variables"]

/-- Settings from a JSON value. -/
def settings? (j : Json) : Option Settings := do
  match ← j.fields? settingsFields with
  | [depth, division, unbound] =>
    return {
      maxDepth := ← optional? (nat? largestDepth) defaultMaxDepth depth
      divisionByZero := ← optional? (choice? divisionNames) .error division
      unboundVariables := ← optional? (choice? unboundNames) .error unbound }
  | _ => none

/-- Settings as a JSON value. -/
def ofSettings (s : Settings) : Json :=
  .obj [
    member "max_depth" (ofNat s.maxDepth),
    member "division_by_zero" (ofString (divisionName s.divisionByZero)),
    member "unbound_variables" (ofString (unboundName s.unboundVariables))]

/-- Settings from a text. -/
def readSettings? (s : String) : Option Settings :=
  (Json.read? s).bind settings?

end UnitCalc.Document
