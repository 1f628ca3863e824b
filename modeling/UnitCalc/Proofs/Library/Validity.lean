import UnitCalc.Proofs.Library.Change
import UnitCalc.Proofs.Library.FirstItem

/-!
# `Proofs.Library.Validity` — changes keep what may be stored

A change lets units into a library in two ways, with a whole category and one at a time, and each of them
checks what it lets in. So the units of the new library are units of the old one or valid
(`Change.valid_or_mem`), and a library that may be stored stays so. Formulas are let in one at a time and
are parsed before.
-/

namespace UnitCalc

open Formula

namespace Library

variable {l l' : Library} {m : Mutation} {e : Event} {u : UnitDef}

theorem mem_units : u ∈ l.units ↔ ∃ c ∈ l.categories, u ∈ c.units :=
  List.mem_flatMap

theorem mem_units_setCategory {c : Category} (h : u ∈ (l.setCategory c).units) :
    u ∈ l.units ∨ u ∈ c.units := by
  obtain ⟨d, hd, hu⟩ := mem_units.1 h
  rcases mem_updateFirst hd with hd | rfl
  · exact .inl (mem_units.2 ⟨d, hd, hu⟩)
  · exact .inr hu

theorem mem_units_of_category? {id : Uuid} {c : Category} (found : l.category? id = some c)
    (h : u ∈ c.units) : u ∈ l.units :=
  mem_units.2 ⟨c, List.mem_of_find?_eq_some found, h⟩

/-- **Every unit of a library after a change is a unit from before or valid.** -/
theorem Change.valid_or_mem (h : Change l m e l') (hu : u ∈ l'.units) :
    u ∈ l.units ∨ u.validate = .ok () := by
  cases h with
  | insertCategory valid new =>
    obtain ⟨d, hd, inside⟩ := mem_units.1 hu
    rcases List.mem_append.1 hd with hd | hd
    · exact .inl (mem_units.2 ⟨d, hd, inside⟩)
    · obtain rfl := List.mem_singleton.1 hd
      exact .inr (valid u inside)
  | replaceCategory valid found user =>
    exact (mem_units_setCategory hu).imp_right (valid u)
  | deleteCategory found user =>
    obtain ⟨d, hd, inside⟩ := mem_units.1 hu
    exact .inl (mem_units.2 ⟨d, List.mem_of_mem_eraseP hd, inside⟩)
  | insertUnit valid found new =>
    rcases mem_units_setCategory hu with hu | hu
    · exact .inl hu
    · rcases List.mem_append.1 hu with hu | hu
      · exact .inl (mem_units_of_category? found hu)
      · obtain rfl := List.mem_singleton.1 hu
        exact .inr valid
  | replaceUnit valid found foundUnit user =>
    rcases mem_units_setCategory hu with hu | hu
    · exact .inl hu
    · rcases mem_updateFirst hu with hu | rfl
      · exact .inl (mem_units_of_category? found hu)
      · exact .inr valid
  | deleteUnit found foundUnit user =>
    rcases mem_units_setCategory hu with hu | hu
    · exact .inl hu
    · exact .inl (mem_units_of_category? found (List.mem_of_mem_eraseP hu))
  | insertFormula parsed new => exact .inl hu
  | replaceFormula parsed found => exact .inl hu
  | deleteFormula found => exact .inl hu

theorem Change.version_eq (h : Change l m e l') : l'.version = l.version := by
  cases h <;> rfl

/-- **A change keeps what may be stored.** -/
theorem Change.storable (h : Change l m e l') (stored : l.Storable) : l'.Storable where
  version := h.version_eq ▸ stored.version
  valid u hu := (h.valid_or_mem hu).elim (stored.valid u) id

/-- Every formula parses. -/
def Parsed (l : Library) : Prop :=
  ∀ f ∈ l.formulas, ∃ tree, parse f.source = .ok tree

theorem parsed_empty : empty.Parsed :=
  nofun

/-- **A change keeps a library parsed.** -/
theorem Change.parsed (h : Change l m e l') (before : l.Parsed) : l'.Parsed := by
  intro g hg
  cases h with
  | @insertFormula f tree parsed new =>
    rcases List.mem_append.1 hg with hg | hg
    · exact before g hg
    · obtain rfl := List.mem_singleton.1 hg
      exact ⟨tree, parsed⟩
  | @replaceFormula f tree parsed found =>
    rcases mem_updateFirst hg with hg | rfl
    · exact before g hg
    · exact ⟨tree, parsed⟩
  | deleteFormula found => exact before g (List.mem_of_mem_eraseP hg)
  | _ => exact before g hg

end Library

end UnitCalc
