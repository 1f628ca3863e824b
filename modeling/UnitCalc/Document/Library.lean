import UnitCalc.Json.Printer
import UnitCalc.Json.Record
import UnitCalc.Library.Basic

/-!
# `UnitCalc.Document.Library` — libraries as JSON

## Contents
- **Identifiers.** `id?`, `ofId`.
- **Units.** `unit?`, `ofUnit`.
- **Categories.** `category?`, `ofCategory`.
- **Formulas.** `formula?`, `ofFormula`.
- **Libraries.** `library?`, `ofLibrary`, and the text `libraryText`.
-/

namespace UnitCalc.Document

open Formula Json

/-! ## Identifiers -/

def id? (j : Json) : Option Uuid :=
  j.text?.bind Uuid.ofText?

def ofId (id : Uuid) : Json :=
  ofString id.text

/-! ## Units -/

def unitFields : List String :=
  ["id", "name", "symbol", "is_system_defined", "use_metric_prefixes", "factor", "numerator",
   "denominator", "conversion_formula"]

/-- A unit from a JSON value. -/
def unit? (j : Json) : Option UnitDef := do
  match ← j.fields? unitFields with
  | [id, name, symbol, builtIn, prefixes, factor, numerator, denominator, formula] =>
    return {
      id := ← required? id? id
      name := ← required? text? name
      symbol := ← required? text? symbol
      isBuiltIn := ← optional? bool? false builtIn
      takesPrefixes := ← optional? bool? false prefixes
      factor := ← required? float? factor
      dimension := ⟨← optional? (list? word?) [] numerator, ← optional? (list? word?) [] denominator⟩
      formula := ← optional? (nullable? text?) none formula }
  | _ => none

def ofWord (n : UInt32) : Json :=
  ofNat n.toNat

/-- A unit as a JSON value. A formula that the unit has not is left out. -/
def ofUnit (u : UnitDef) : Json :=
  .obj ([
    member "id" (ofId u.id),
    member "name" (ofString u.name),
    member "symbol" (ofString u.symbol),
    member "is_system_defined" (.bool u.isBuiltIn),
    member "use_metric_prefixes" (.bool u.takesPrefixes),
    member "factor" (ofFloat u.factor),
    member "numerator" (.arr (u.dimension.numerator.map ofWord)),
    member "denominator" (.arr (u.dimension.denominator.map ofWord))] ++
    match u.formula with
    | some formula => [member "conversion_formula" (ofString formula)]
    | none => [])

/-! ## Categories -/

def categoryFields : List String :=
  ["id", "name", "is_system_defined", "units"]

/-- A category from a JSON value. -/
def category? (j : Json) : Option Category := do
  match ← j.fields? categoryFields with
  | [id, name, builtIn, units] =>
    return {
      id := ← required? id? id
      name := ← required? text? name
      isBuiltIn := ← optional? bool? false builtIn
      units := ← optional? (list? unit?) [] units }
  | _ => none

/-- A category as a JSON value. -/
def ofCategory (c : Category) : Json :=
  .obj [
    member "id" (ofId c.id),
    member "name" (ofString c.name),
    member "is_system_defined" (.bool c.isBuiltIn),
    member "units" (.arr (c.units.map ofUnit))]

/-! ## Formulas -/

def formulaFields : List String :=
  ["id", "name", "symbol", "formula"]

/-- A formula from a JSON value. -/
def formula? (j : Json) : Option Named := do
  match ← j.fields? formulaFields with
  | [id, name, symbol, source] =>
    return {
      id := ← required? id? id
      name := ← required? text? name
      symbol := ← required? text? symbol
      source := ← required? text? source }
  | _ => none

/-- A formula as a JSON value. -/
def ofFormula (f : Named) : Json :=
  .obj [
    member "id" (ofId f.id),
    member "name" (ofString f.name),
    member "symbol" (ofString f.symbol),
    member "formula" (ofString f.source)]

/-! ## Libraries -/

def libraryFields : List String :=
  ["version", "categories", "formulas"]

/-- A library from a JSON value. Nothing but its form is checked. -/
def library? (j : Json) : Option Library := do
  match ← j.fields? libraryFields with
  | [version, categories, formulas] =>
    return {
      version := ← optional? word? libraryVersion version
      categories := ← optional? (list? category?) [] categories
      formulas := ← optional? (list? formula?) [] formulas }
  | _ => none

/-- A library as a JSON value. -/
def ofLibrary (l : Library) : Json :=
  .obj [
    member "version" (ofWord l.version),
    member "categories" (.arr (l.categories.map ofCategory)),
    member "formulas" (.arr (l.formulas.map ofFormula))]

/-- A library from a text. Nothing but its form is checked. -/
def readLibrary? (s : String) : Option Library :=
  (Json.read? s).bind library?

/-- The document of a library. -/
def libraryText (l : Library) : String :=
  (ofLibrary l).pretty

end UnitCalc.Document
