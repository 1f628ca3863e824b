import UnitCalc.Proofs.Library.FirstItem
import UnitCalc.Proofs.Library.Runs

/-!
# `Proofs.Library.Identity` — identifiers are given once

What is saved takes the place of what has its identifier, or comes last if nothing has it. So in every
library that mutations make of the empty one no two categories and no two formulas share an identifier
(`Change.distinct`).

The units of a category come into it in two ways. Those that are saved one at a time keep their identifiers
apart for the same reason. A list of units that is saved with its category is taken as it is, and may have
an identifier twice (`not_distinct_after_saveCategory_twins`); the units of a category are therefore told
apart if they are so in every list that is saved under its identifier (`distinct_after_empty`).
-/

namespace UnitCalc

/-- No two units of the category have the same identifier. -/
def Category.Distinct (c : Category) : Prop :=
  (c.units.map (·.id)).Nodup

instance (c : Category) : Decidable c.Distinct :=
  inferInstanceAs (Decidable (List.Nodup _))

namespace Library

/-- No two categories and no two formulas have the same identifier. -/
structure Distinct (l : Library) : Prop where
  categories : (l.categories.map (·.id)).Nodup
  formulas : (l.formulas.map (·.id)).Nodup

/-- In all categories with the identifier, units are told apart. -/
def DistinctUnits (l : Library) (id : Uuid) : Prop :=
  ∀ c ∈ l.categories, c.id = id → c.Distinct

variable {l l' : Library} {m : Mutation} {e : Event} {id : Uuid} {c d : Category} {u : UnitDef}

theorem distinct_empty : empty.Distinct :=
  ⟨List.nodup_nil, List.nodup_nil⟩

/-! ## Categories and formulas -/

/-- **A change keeps categories apart, and formulas.** -/
theorem Change.distinct (h : Change l m e l') (before : l.Distinct) : l'.Distinct := by
  obtain ⟨categories, formulas⟩ := before
  have replaced (c : Category) : ((l.setCategory c).categories.map (·.id)).Nodup := by
    rw [setCategory, map_updateFirst fun d same => (of_decide_eq_true same).symm]
    exact categories
  cases h with
  | insertCategory valid new =>
    exact ⟨nodup_map_concat categories (id_ne_of_category? new), formulas⟩
  | deleteCategory found user => exact ⟨categories.sublist (List.eraseP_sublist.map _), formulas⟩
  | insertFormula parsed new =>
    refine ⟨categories, nodup_map_concat formulas ?_⟩
    simpa using new
  | replaceFormula parsed found =>
    refine ⟨categories, ?_⟩
    rw [map_updateFirst fun g same => (of_decide_eq_true same).symm]
    exact formulas
  | deleteFormula found => exact ⟨categories, formulas.sublist (List.eraseP_sublist.map _)⟩
  | _ => exact ⟨replaced _, formulas⟩

/-! ## Units -/

theorem distinctUnits_setCategory (before : l.DistinctUnits id) (distinct : d.id = id → d.Distinct) :
    (l.setCategory d).DistinctUnits id := by
  intro c hc same
  rcases mem_updateFirst hc with hc | rfl
  · exact before c hc same
  · exact distinct same

/-- **A change keeps the units of a category apart**, unless it saves a list of units under its identifier
that is not so. -/
theorem Change.distinctUnits (h : Change l m e l')
    (saved : ∀ c, m = .saveCategory c → c.id = id → c.Distinct) (before : l.DistinctUnits id) :
    l'.DistinctUnits id := by
  cases h with
  | @insertCategory c valid new =>
    intro d hd same
    rcases List.mem_append.1 hd with hd | hd
    · exact before d hd same
    · obtain rfl := List.mem_singleton.1 hd
      exact saved d rfl same
  | @replaceCategory c old valid found user => exact distinctUnits_setCategory before (saved c rfl)
  | deleteCategory found user => exact fun d hd => before d (List.mem_of_mem_eraseP hd)
  | @insertUnit _ u c valid found new =>
    refine distinctUnits_setCategory before fun same => ?_
    exact nodup_map_concat (before c (mem_of_category? found) same) (id_ne_of_unit? new)
  | @replaceUnit _ u old c valid found foundUnit user =>
    refine distinctUnits_setCategory before fun same => ?_
    rw [Category.Distinct, map_updateFirst fun v fits => (of_decide_eq_true fits).symm]
    exact before c (mem_of_category? found) same
  | @deleteUnit _ unitId old c found foundUnit user =>
    refine distinctUnits_setCategory before fun same => ?_
    exact List.Nodup.sublist (List.eraseP_sublist.map _) (before c (mem_of_category? found) same)
  | _ => exact before

theorem Distinct.after (start : l.Distinct) (ms : List Mutation) : (l.after ms).Distinct :=
  invariant_after Change.distinct start ms

/-- A run keeps the units of a category apart, unless it succeeds in saving a list of units under its
identifier that is not so. -/
theorem DistinctUnits.after {ms : List Mutation} (start : l.DistinctUnits id)
    (saved : ∀ before c later l', ms = before ++ .saveCategory c :: later → c.id = id →
      ((l.after before).apply (.saveCategory c)).result = .ok l' → c.Distinct) :
    (l.after ms).DistinctUnits id := by
  by_contra lost
  obtain ⟨before, m, later, e, l', split, held, change, gone⟩ :=
    exists_change_of_lost (P := fun l => l.DistinctUnits id) start lost
  refine gone (change.distinctUnits (fun c same sameId => ?_) held)
  subst same
  exact saved before c later l' split sameId (result_apply_eq_ok.2 ⟨e, change⟩)

/-- Deleting a unit leaves none with its identifier, if the units are told apart. -/
theorem DistinctUnits.of_deleteUnit {unitId : Uuid} (before : l.DistinctUnits id)
    (done : (l.apply (.deleteUnit id unitId)).result = .ok l') :
    ∃ c, l'.category? id = some c ∧ ∀ v ∈ c.units, v.id ≠ unitId := by
  obtain ⟨e, change⟩ := result_apply_eq_ok.1 done
  cases change with
  | @deleteUnit _ _ old c found foundUnit user =>
    obtain rfl := id_of_category? found
    have distinct := before c (mem_of_category? found) rfl
    exact ⟨_, category?_setCategory found, fun v hv => key_ne_of_mem_eraseP distinct foundUnit hv⟩

/-- Saving a unit leaves one with its identifier, if the units are told apart. -/
theorem DistinctUnits.of_saveUnit (before : l.DistinctUnits id)
    (done : (l.apply (.saveUnit id u)).result = .ok l') :
    ∃ c, l'.category? id = some c ∧ c.units.filter (fun v => v.id = u.id) = [u] := by
  obtain ⟨e, change⟩ := result_apply_eq_ok.1 done
  have later : l'.DistinctUnits id := change.distinctUnits nofun before
  -- in both cases the unit is in the category that was changed, and is told apart there
  have only {c : Category} (found : l'.category? id = some c) (hu : u ∈ c.units) :
      ∃ c, l'.category? id = some c ∧ c.units.filter (fun v => v.id = u.id) = [u] :=
    ⟨c, found, filter_key_eq (later c (mem_of_category? found) (id_of_category? found)) hu⟩
  cases change with
  | insertUnit valid found new =>
    obtain rfl := id_of_category? found
    exact only (category?_setCategory found) (List.mem_append_right _ (List.mem_singleton_self u))
  | replaceUnit valid found foundUnit user =>
    obtain rfl := id_of_category? found
    exact only (category?_setCategory found) (mem_updateFirst_self foundUnit)

/-- **Identifiers are given once.** In every library that mutations make of the empty one, no two categories
and no two formulas have the same identifier. Nor have two units of a category, if none had in any list of
units that was saved with a category under its identifier; then a unit that is deleted leaves none with
its identifier, and a unit that is saved is the only one with its identifier. -/
theorem distinct_after_empty (ms : List Mutation) :
    (empty.after ms).Distinct ∧
      ∀ id, (∀ before c later l', ms = before ++ .saveCategory c :: later → c.id = id →
          ((empty.after before).apply (.saveCategory c)).result = .ok l' → c.Distinct) →
        (∀ c ∈ (empty.after ms).categories, c.id = id → c.Distinct) ∧
        (∀ unitId l', ((empty.after ms).apply (.deleteUnit id unitId)).result = .ok l' →
          ∃ c, l'.category? id = some c ∧ ∀ v ∈ c.units, v.id ≠ unitId) ∧
        ∀ u l', ((empty.after ms).apply (.saveUnit id u)).result = .ok l' →
          ∃ c, l'.category? id = some c ∧ c.units.filter (fun v => v.id = u.id) = [u] := by
  refine ⟨distinct_empty.after ms, fun id saved => ?_⟩
  have distinct : (empty.after ms).DistinctUnits id := DistinctUnits.after nofun saved
  exact ⟨distinct, fun _ _ done => distinct.of_deleteUnit done, fun _ _ done => distinct.of_saveUnit done⟩

/-- A category with two units. -/
def pair : Category :=
  { id := .nil, name := "Pair", units := [.user .nil "One" "a" 1, .user .max "Two" "b" 2] }

/-- One of two units is deleted. -/
theorem distinct_after_empty_pair :
    ∃ l', ((empty.after [.saveCategory pair]).apply (.deleteUnit .nil .nil)).result = .ok l'
      ∧ ∃ c, l'.category? .nil = some c ∧ ∀ v ∈ c.units, v.id ≠ .nil := by
  have saved : ∀ before c later l', [.saveCategory pair] = before ++ .saveCategory c :: later →
      c.id = .nil → ((empty.after before).apply (.saveCategory c)).result = .ok l' → c.Distinct := by
    intro before c later l' split _ _
    have hc : .saveCategory c ∈ [Mutation.saveCategory pair] := split ▸ by simp
    obtain rfl := Mutation.saveCategory.inj (List.mem_singleton.1 hc)
    decide +kernel
  have found : (empty.after [.saveCategory pair]).category? .nil = some pair := by decide +kernel
  have foundUnit : pair.unit? .nil = some (.user .nil "One" "a" 1) := by decide +kernel
  have deleted := result_apply_eq_ok.2 ⟨_, .deleteUnit found foundUnit rfl⟩
  exact ⟨_, deleted, ((distinct_after_empty _).2 .nil saved).2.1 .nil _ deleted⟩

/-- A category whose units share their identifier. -/
def twins : Category :=
  { id := .nil, name := "Twins", units := [.user .nil "One" "a" 1, .user .nil "Other" "b" 2] }

/-- **Units can share an identifier**: it is not so that whatever mutations make a library of the empty one,
its categories, its formulas and the units of each category are told apart. -/
theorem not_distinct_after_saveCategory_twins :
    ¬ ∀ ms, (empty.after ms).Distinct ∧ ∀ c ∈ (empty.after ms).categories, c.Distinct := by
  intro always
  have hc : twins ∈ (empty.after [.saveCategory twins]).categories := by decide +kernel
  have shared : ¬ twins.Distinct := by decide +kernel
  exact shared ((always [.saveCategory twins]).2 twins hc)

end Library

end UnitCalc
