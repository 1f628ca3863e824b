import UnitCalc.Document.Library
import UnitCalc.Proofs.Json.Reader
import UnitCalc.Proofs.Json.Record
import UnitCalc.Proofs.Uuid

/-!
# `Proofs.Document.Library` — the document of a library reads back

A library is written as a document that stands for the same library, in every field and to the bit of
every factor, provided that its factors are finite. A factor that is not is written as `null`, and then
the document has not the form of a library (`readLibrary?_libraryText`).

Each part of a library is written as a record, so that there are two things to show of it: the record
reads back, field by field, and its numbers are spelled as numbers, so that its text reads as the record.
-/

namespace UnitCalc.Document

open Formula Json

/-! ## Leaves -/

theorem id?_ofId (id : Uuid) : id? (ofId id) = some id :=
  Uuid.ofText?_text id

theorem text?_ofString (s : String) : (ofString s).text? = some s :=
  rfl

theorem bool?_bool (b : Bool) : (bool b).bool? = some b :=
  rfl

theorem word?_ofWord (n : UInt32) : (ofWord n).word? = some n := by
  have small : n.toNat ≤ UInt32.size - 1 := Nat.le_sub_one_of_lt n.toNat_lt_size
  rw [ofWord, word?, nat?_ofNat, if_pos small, Option.map_some, UInt32.ofNat_toNat]

theorem spelled_ofId (id : Uuid) : Spelled (ofId id) :=
  .str _

theorem spelled_ofString (s : String) : Spelled (ofString s) :=
  .str _

theorem spelled_ofWord (n : UInt32) : Spelled (ofWord n) := by
  refine .num ?_
  rw [String.toList_ofList]
  exact numeral_toDigits n.toNat

theorem spelled_ofFloat (x : Float) : Spelled (ofFloat x) := by
  cases finite : x.isFinite with
  | true =>
    obtain ⟨spelling, written, numeral, -⟩ := ofFloat_eq_num finite
    rw [written]
    exact .num numeral
  | false =>
    rw [ofFloat_eq_null finite]
    exact .null

theorem spelled_map {α : Type} {item : α → Json} (each : ∀ a, Spelled (item a)) (as : List α) :
    Spelled (arr (as.map item)) :=
  .arr (List.forall_mem_map.2 fun a _ => each a)

theorem spelled_written {names : List String} {values : List (Option Json)}
    (each : ∀ v ∈ values, ∀ j ∈ v, Spelled j) : Spelled (obj (written names values)) := by
  refine .obj fun m hm => ?_
  fun_induction written names values with
  | case1 name names value values ih =>
    obtain ⟨first, others⟩ := List.forall_mem_cons.1 each
    rcases List.mem_cons.1 hm with rfl | hm
    · exact first value rfl
    · exact ih others hm
  | case2 name names values ih => exact ih (List.forall_mem_cons.1 each).2 hm
  | case3 => cases hm

/-! ## Units -/

/-- The fields of a unit that are written. -/
def unitValues (u : UnitDef) : List (Option Json) :=
  [some (ofId u.id), some (ofString u.name), some (ofString u.symbol), some (bool u.isBuiltIn),
   some (bool u.takesPrefixes), some (ofFloat u.factor), some (arr (u.dimension.numerator.map ofWord)),
   some (arr (u.dimension.denominator.map ofWord)), u.formula.map ofString]

theorem ofUnit_eq (u : UnitDef) : ofUnit u = obj (written unitFields (unitValues u)) := by
  rw [ofUnit, unitValues]
  cases u.formula <;> rfl

theorem formula?_ofString (formula : Option String) :
    optional? (nullable? text?) none (formula.map ofString) = some formula := by
  cases formula <;> rfl

/-- **A written unit reads back if its factor is finite**, and does not otherwise. -/
theorem unit?_ofUnit (u : UnitDef) : unit? (ofUnit u) = if u.factor.isFinite then some u else none := by
  rw [unit?, ofUnit_eq, fields?_written (by decide) rfl, unitValues]
  simp only [Option.bind_eq_bind, Option.bind_some, required?_some, optional?_some, id?_ofId,
    text?_ofString, bool?_bool, list?_map_of_forall word?_ofWord, formula?_ofString, float?_ofFloat]
  cases u.factor.isFinite <;> rfl

theorem spelled_ofUnit (u : UnitDef) : Spelled (ofUnit u) := by
  rw [ofUnit_eq, unitValues]
  refine spelled_written ?_
  simp [spelled_ofId, spelled_ofString, spelled_ofFloat, spelled_map spelled_ofWord, Spelled.bool]

/-! ## Categories -/

def categoryValues (c : Category) : List (Option Json) :=
  [some (ofId c.id), some (ofString c.name), some (bool c.isBuiltIn), some (arr (c.units.map ofUnit))]

theorem ofCategory_eq (c : Category) : ofCategory c = obj (written categoryFields (categoryValues c)) :=
  rfl

theorem category?_ofCategory (c : Category) : category? (ofCategory c)
    = if c.units.all (·.factor.isFinite) then some c else none := by
  rw [category?, ofCategory_eq, fields?_written (by decide) rfl, categoryValues]
  simp only [Option.bind_eq_bind, Option.bind_some, required?_some, optional?_some, id?_ofId,
    text?_ofString, bool?_bool, list?_map unit?_ofUnit]
  cases c.units.all (·.factor.isFinite) <;> rfl

theorem spelled_ofCategory (c : Category) : Spelled (ofCategory c) := by
  rw [ofCategory_eq, categoryValues]
  refine spelled_written ?_
  simp [spelled_ofId, spelled_ofString, spelled_map spelled_ofUnit, Spelled.bool]

/-! ## Formulas -/

def formulaValues (f : Named) : List (Option Json) :=
  [some (ofId f.id), some (ofString f.name), some (ofString f.symbol), some (ofString f.source)]

theorem ofFormula_eq (f : Named) : ofFormula f = obj (written formulaFields (formulaValues f)) :=
  rfl

theorem formula?_ofFormula (f : Named) : formula? (ofFormula f) = some f := by
  rw [formula?, ofFormula_eq, fields?_written (by decide) rfl, formulaValues]
  simp only [Option.bind_eq_bind, Option.bind_some, required?_some, id?_ofId, text?_ofString]
  rfl

theorem spelled_ofFormula (f : Named) : Spelled (ofFormula f) := by
  rw [ofFormula_eq, formulaValues]
  refine spelled_written ?_
  simp [spelled_ofId, spelled_ofString]

/-! ## Libraries -/

def libraryValues (l : Library) : List (Option Json) :=
  [some (ofWord l.version), some (arr (l.categories.map ofCategory)), some (arr (l.formulas.map ofFormula))]

theorem ofLibrary_eq (l : Library) : ofLibrary l = obj (written libraryFields (libraryValues l)) :=
  rfl

theorem library?_ofLibrary (l : Library) : library? (ofLibrary l)
    = if l.units.all (·.factor.isFinite) then some l else none := by
  rw [library?, ofLibrary_eq, fields?_written (by decide) rfl, libraryValues]
  simp only [Option.bind_eq_bind, Option.bind_some, optional?_some, word?_ofWord,
    list?_map category?_ofCategory, list?_map_of_forall formula?_ofFormula]
  rw [Library.units, List.all_flatMap]
  cases l.categories.all fun c => c.units.all (·.factor.isFinite) <;> rfl

theorem spelled_ofLibrary (l : Library) : Spelled (ofLibrary l) := by
  rw [ofLibrary_eq, libraryValues]
  refine spelled_written ?_
  simp [spelled_ofWord, spelled_map spelled_ofCategory, spelled_map spelled_ofFormula]

/-- **The document of a library reads back if its factors are finite**, and has not the form of a library
otherwise. -/
theorem readLibrary?_libraryText (l : Library) : readLibrary? (libraryText l)
    = if l.units.all (·.factor.isFinite) then some l else none := by
  rw [readLibrary?, libraryText, read?_pretty (spelled_ofLibrary l), Option.bind_some, library?_ofLibrary]

end UnitCalc.Document
