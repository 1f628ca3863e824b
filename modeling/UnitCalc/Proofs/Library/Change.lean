import UnitCalc.Library.Mutation
import UnitCalc.Proofs.Library.Loading

/-!
# `Proofs.Library.Change` — what a mutation can do

A mutation that succeeds makes one of nine changes, and reports it with one event. `Change` lists them
with everything that is checked before each of them, and a mutation gives a library exactly when it makes
a change to it (`result_apply_eq_ok`). Facts about all mutations are proved by the cases of `Change`, so
that no later proof opens a mutation again.
-/

namespace UnitCalc

open Formula

namespace Library

/-- What a mutation does to a library when it succeeds, and what it reports. -/
inductive Change (l : Library) : Mutation → Event → Library → Prop
  | insertCategory {c : Category} (valid : ∀ u ∈ c.units, u.validate = .ok ())
      (new : l.category? c.id = none) :
      Change l (.saveCategory c) (.insertedCategory c.id c.name c.units.length)
        { l with categories := l.categories ++ [c] }
  | replaceCategory {c old : Category} (valid : ∀ u ∈ c.units, u.validate = .ok ())
      (found : l.category? c.id = some old) (user : old.isBuiltIn = false) :
      Change l (.saveCategory c) (.replacedCategory c.id c.name) (l.setCategory c)
  | deleteCategory {id : Uuid} {old : Category} (found : l.category? id = some old)
      (user : old.isBuiltIn = false) :
      Change l (.deleteCategory id) (.deletedCategory id old.units.length)
        { l with categories := l.categories.eraseP fun d => d.id = id }
  | insertUnit {id : Uuid} {u : UnitDef} {c : Category} (valid : u.validate = .ok ())
      (found : l.category? id = some c) (new : c.unit? u.id = none) :
      Change l (.saveUnit id u) (.insertedUnit u.id u.symbol id)
        (l.setCategory { c with units := c.units ++ [u] })
  | replaceUnit {id : Uuid} {u old : UnitDef} {c : Category} (valid : u.validate = .ok ())
      (found : l.category? id = some c) (foundUnit : c.unit? u.id = some old)
      (user : old.isBuiltIn = false) :
      Change l (.saveUnit id u) (.replacedUnit u.id id)
        (l.setCategory { c with units := updateFirst (fun v => v.id = u.id) (fun _ => u) c.units })
  | deleteUnit {id unitId : Uuid} {old : UnitDef} {c : Category} (found : l.category? id = some c)
      (foundUnit : c.unit? unitId = some old) (user : old.isBuiltIn = false) :
      Change l (.deleteUnit id unitId) (.deletedUnit unitId id)
        (l.setCategory { c with units := c.units.eraseP fun v => v.id = unitId })
  | insertFormula {f : Named} {tree : Expr} (parsed : parse f.source = .ok tree)
      (new : l.formulas.any (fun g => g.id = f.id) = false) :
      Change l (.saveFormula f) (.insertedFormula f.id f.name) { l with formulas := l.formulas ++ [f] }
  | replaceFormula {f : Named} {tree : Expr} (parsed : parse f.source = .ok tree)
      (found : l.formulas.any (fun g => g.id = f.id) = true) :
      Change l (.saveFormula f) (.replacedFormula f.id)
        { l with formulas := updateFirst (fun g => g.id = f.id) (fun _ => f) l.formulas }
  | deleteFormula {id : Uuid} (found : l.formulas.any (fun g => g.id = id) = true) :
      Change l (.deleteFormula id) (.deletedFormula id)
        { l with formulas := l.formulas.eraseP fun g => g.id = id }

variable {l l' : Library} {m : Mutation} {e : Event}

theorem checkUnit_of_valid {u : UnitDef} (valid : u.validate = .ok ()) : checkUnit u = .ok () := by
  rw [checkUnit, valid]

theorem checkUnits_of_valid {us : List UnitDef} (valid : ∀ u ∈ us, u.validate = .ok ()) :
    checkUnits us = .ok () := by
  induction us with
  | nil => rfl
  | cons u us ih =>
    obtain ⟨first, others⟩ := List.forall_mem_cons.1 valid
    rw [checkUnits, checkUnit_of_valid first, ih others]
    rfl

/-- A change is made by its mutation. -/
theorem Change.apply_eq (h : Change l m e l') : l.apply m = ⟨[e], .ok l'⟩ := by
  cases h with
  | insertCategory valid new =>
    rw [apply, saveCategory, checkUnits_of_valid valid, new]
    rfl
  | replaceCategory valid found user =>
    rw [apply, saveCategory, checkUnits_of_valid valid, found]
    dsimp only
    rw [if_neg (by simp [user])]
    rfl
  | deleteCategory found user =>
    rw [apply, Library.deleteCategory, found]
    dsimp only
    rw [if_neg (by simp [user])]
    rfl
  | insertUnit valid found new =>
    rw [apply, saveUnit, checkUnit_of_valid valid, found]
    dsimp only
    rw [new]
    rfl
  | replaceUnit valid found foundUnit user =>
    rw [apply, saveUnit, checkUnit_of_valid valid, found]
    dsimp only
    rw [foundUnit]
    dsimp only
    rw [if_neg (by simp [user])]
    rfl
  | deleteUnit found foundUnit user =>
    rw [apply, Library.deleteUnit, found]
    dsimp only
    rw [foundUnit]
    dsimp only
    rw [if_neg (by simp [user])]
    rfl
  | insertFormula parsed new =>
    rw [apply, saveFormula, parsed]
    dsimp only
    rw [new]
    rfl
  | replaceFormula parsed found =>
    rw [apply, saveFormula, parsed]
    dsimp only
    rw [if_pos found]
    rfl
  | deleteFormula found =>
    rw [apply, Library.deleteFormula, if_pos found]
    rfl

theorem exists_change_of_saveCategory {c : Category} (h : (l.saveCategory c).result = .ok l') :
    ∃ e, Change l (.saveCategory c) e l' := by
  obtain ⟨_, checked, h⟩ := Attempt.exists_of_bind_eq_ok h
  have valid := result_checkUnits_eq_ok.1 checked
  split at h
  · next old found =>
    split at h
    · cases h
    · next user =>
      obtain rfl := Except.ok.inj h
      exact ⟨_, .replaceCategory valid found (Bool.eq_false_iff.2 user)⟩
  · next new =>
    obtain rfl := Except.ok.inj h
    exact ⟨_, .insertCategory valid new⟩

theorem exists_change_of_deleteCategory {id : Uuid} (h : (l.deleteCategory id).result = .ok l') :
    ∃ e, Change l (.deleteCategory id) e l' := by
  rw [Library.deleteCategory] at h
  split at h
  · cases h
  · next old found =>
    split at h
    · cases h
    · next user =>
      obtain rfl := Except.ok.inj h
      exact ⟨_, .deleteCategory found (Bool.eq_false_iff.2 user)⟩

theorem exists_change_of_saveUnit {id : Uuid} {u : UnitDef} (h : (l.saveUnit id u).result = .ok l') :
    ∃ e, Change l (.saveUnit id u) e l' := by
  obtain ⟨_, checked, h⟩ := Attempt.exists_of_bind_eq_ok h
  have valid : u.validate = .ok () := result_checkUnit_eq_ok.1 checked
  split at h
  · cases h
  · next c found =>
    split at h
    · next old foundUnit =>
      split at h
      · cases h
      · next user =>
        obtain rfl := Except.ok.inj h
        exact ⟨_, .replaceUnit valid found foundUnit (Bool.eq_false_iff.2 user)⟩
    · next new =>
      obtain rfl := Except.ok.inj h
      exact ⟨_, .insertUnit valid found new⟩

theorem exists_change_of_deleteUnit {id unitId : Uuid} (h : (l.deleteUnit id unitId).result = .ok l') :
    ∃ e, Change l (.deleteUnit id unitId) e l' := by
  rw [Library.deleteUnit] at h
  split at h
  · cases h
  · next c found =>
    split at h
    · cases h
    · next old foundUnit =>
      split at h
      · cases h
      · next user =>
        obtain rfl := Except.ok.inj h
        exact ⟨_, .deleteUnit found foundUnit (Bool.eq_false_iff.2 user)⟩

theorem exists_change_of_saveFormula {f : Named} (h : (l.saveFormula f).result = .ok l') :
    ∃ e, Change l (.saveFormula f) e l' := by
  rw [saveFormula] at h
  split at h
  · cases h
  · next tree parsed =>
    split at h
    · next found =>
      obtain rfl := Except.ok.inj h
      exact ⟨_, .replaceFormula parsed found⟩
    · next new =>
      obtain rfl := Except.ok.inj h
      exact ⟨_, .insertFormula parsed (Bool.eq_false_iff.2 new)⟩

theorem exists_change_of_deleteFormula {id : Uuid} (h : (l.deleteFormula id).result = .ok l') :
    ∃ e, Change l (.deleteFormula id) e l' := by
  rw [Library.deleteFormula] at h
  split at h
  · next found =>
    obtain rfl := Except.ok.inj h
    exact ⟨_, .deleteFormula found⟩
  · cases h

/-- **A mutation succeeds exactly when it makes one of the changes.** -/
theorem result_apply_eq_ok : (l.apply m).result = .ok l' ↔ ∃ e, Change l m e l' := by
  constructor
  · intro h
    cases m with
    | saveCategory c => exact exists_change_of_saveCategory h
    | deleteCategory id => exact exists_change_of_deleteCategory h
    | saveUnit id u => exact exists_change_of_saveUnit h
    | deleteUnit id unitId => exact exists_change_of_deleteUnit h
    | saveFormula f => exact exists_change_of_saveFormula h
    | deleteFormula id => exact exists_change_of_deleteFormula h
  · rintro ⟨e, change⟩
    rw [change.apply_eq]

end Library

end UnitCalc
