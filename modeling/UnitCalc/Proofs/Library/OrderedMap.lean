import UnitCalc.Proofs.Library.Identity

/-!
# `Proofs.Library.OrderedMap` — a library as an ordered map

If no key is given twice, a list of items is an ordered map: an item is found by its key, and the items
have their places. `PutInto` and `RemovedFrom` say of two lists that one is the other with an item put into
it, or removed from it, as this is meant for ordered maps: what is put in takes the place of what had its
key, or else comes last; no other key finds anything else than before, and no other item moves.

A library is an ordered map of ordered maps. `Effect` says so of each mutation with the two relations, for
the categories, for the formulas, and for units twice, since putting a unit into its category puts the
changed category into the library. Every mutation that succeeds has its effect, and those succeed that are
permitted (`apply_orderedMap`).
-/

namespace UnitCalc

open Formula

/-! ## Lists as ordered maps -/

section

variable {α β : Type}

/-- Where an item is put: in the place of one with its key, or at the end if none has it. -/
inductive Put (key : α → β) (b : α) : List α → List α → Prop
  | inPlace {before later : List α} {old : α} (same : key old = key b) :
      Put key b (before ++ old :: later) (before ++ b :: later)
  | atEnd {as : List α} (new : ∀ a ∈ as, key a ≠ key b) : Put key b as (as ++ [b])

/-- What is removed: one item with the key, and nothing else. -/
inductive Removed (key : α → β) (k : β) : List α → List α → Prop
  | intro {before later : List α} {old : α} (same : key old = k) :
      Removed key k (before ++ old :: later) (before ++ later)

variable {key : α → β} {k : β} {a b : α} {as bs : List α}

theorem Put.mem (h : Put key b as bs) : b ∈ bs := by
  cases h with
  | inPlace same => exact List.mem_append_right _ List.mem_cons_self
  | atEnd new => exact List.mem_append_right _ (List.mem_singleton_self b)

theorem Put.nodup (h : Put key b as bs) (distinct : (as.map key).Nodup) : (bs.map key).Nodup := by
  cases h with
  | inPlace same =>
    rw [List.map_append, List.map_cons] at distinct ⊢
    rwa [← same]
  | atEnd new => exact nodup_map_concat distinct new

variable [DecidableEq β]

/-- The second list is the first one with an item put into it, as into an ordered map. -/
structure PutInto (key : α → β) (b : α) (as bs : List α) : Prop where
  found : bs.find? (fun x => key x = key b) = some b
  place : Put key b as bs
  others : ∀ k ≠ key b, bs.find? (fun x => key x = k) = as.find? (fun x => key x = k)

/-- The second list is the first one without the item that had the key, as for ordered maps. -/
structure RemovedFrom (key : α → β) (k : β) (as bs : List α) : Prop where
  gone : bs.find? (fun x => key x = k) = none
  removed : Removed key k as bs
  others : ∀ k' ≠ k, bs.find? (fun x => key x = k') = as.find? (fun x => key x = k')

/-- If every key is given once, an item is found by its key. -/
theorem find?_key_eq (distinct : (as.map key).Nodup) (h : a ∈ as) :
    as.find? (fun x => key x = key a) = some a := by
  rw [← List.head?_filter, filter_key_eq distinct h, List.head?_cons]

/-- An item in the middle of a list does not matter to the search for another key. -/
theorem find?_middle {before later : List α} (other : key a ≠ k) :
    (before ++ a :: later).find? (fun x => key x = k) = (before ++ later).find? (fun x => key x = k) := by
  rw [List.find?_append, List.find?_append, List.find?_cons_of_neg (by simpa using other)]

theorem Put.putInto (h : Put key b as bs) (distinct : (as.map key).Nodup) : PutInto key b as bs := by
  refine ⟨find?_key_eq (h.nodup distinct) h.mem, h, fun k other => ?_⟩
  cases h with
  | inPlace same => rw [find?_middle other.symm, find?_middle (same.trans_ne other.symm)]
  | atEnd new => rw [find?_middle other.symm, List.append_nil]

theorem Removed.removedFrom (h : Removed key k as bs) (distinct : (as.map key).Nodup) :
    RemovedFrom key k as bs := by
  refine ⟨?_, h, fun k' other => ?_⟩
  · obtain ⟨rfl⟩ := h
    exact List.find?_eq_none.2 fun x hx => by simpa using key_ne_of_mem_others distinct hx
  · obtain ⟨rfl⟩ := h
    exact (find?_middle other.symm).symm

/-- Replacing the item that is found puts another one with its key into the list. -/
theorem put_updateFirst (found : as.find? (fun x => key x = key b) = some a) :
    Put key b as (updateFirst (fun x => key x = key b) (fun _ => b) as) := by
  have same : key a = key b := by simpa using List.find?_some found
  obtain ⟨before, later, rfl, -, updated⟩ := exists_append_of_find? found
  rw [updated]
  exact .inPlace same

/-- Erasing the item that is found removes it from the list. -/
theorem removed_eraseP (found : as.find? (fun x => key x = k) = some a) :
    Removed key k as (as.eraseP fun x => key x = k) := by
  have same : key a = k := by simpa using List.find?_some found
  obtain ⟨before, later, rfl, erased, -⟩ := exists_append_of_find? found
  rw [erased]
  exact .intro same

end

/-! ## What mutations do -/

namespace Library

/-- The first formula with an identifier. -/
def formula? (l : Library) (id : Uuid) : Option Named :=
  l.formulas.find? fun f => f.id = id

/-- The mutation is not refused: what it saves is valid, what it deletes is there, so is the category
of its unit, and what it replaces or deletes is not built in. -/
def Permits (l : Library) : Mutation → Prop
  | .saveCategory c =>
    (∀ u ∈ c.units, u.validate = .ok ()) ∧ ∀ old, l.category? c.id = some old → old.isBuiltIn = false
  | .deleteCategory id => ∃ old, l.category? id = some old ∧ old.isBuiltIn = false
  | .saveUnit id u =>
    u.validate = .ok () ∧
      ∃ c, l.category? id = some c ∧ ∀ old, c.unit? u.id = some old → old.isBuiltIn = false
  | .deleteUnit id unitId =>
    ∃ c, l.category? id = some c ∧ ∃ old, c.unit? unitId = some old ∧ old.isBuiltIn = false
  | .saveFormula f => ∃ tree, parse f.source = .ok tree
  | .deleteFormula id => ∃ old, l.formula? id = some old

/-- Two libraries differ in nothing but their categories. -/
def SameButCategories (l l' : Library) : Prop :=
  l' = { l with categories := l'.categories }

/-- Two libraries differ in nothing but their formulas. -/
def SameButFormulas (l l' : Library) : Prop :=
  l' = { l with formulas := l'.formulas }

/-- What a mutation of an ordered map of ordered maps does. A deletion cannot be made again. -/
def Effect (l l' : Library) : Mutation → Prop
  | .saveCategory c => SameButCategories l l' ∧ PutInto (·.id) c l.categories l'.categories
  | .deleteCategory id =>
    SameButCategories l l' ∧ RemovedFrom (·.id) id l.categories l'.categories ∧
      (l'.apply (.deleteCategory id)).result = .error (.categoryNotFound id)
  | .saveUnit id u =>
    SameButCategories l l' ∧ ∃ c us, l.category? id = some c ∧ PutInto (·.id) u c.units us ∧
      l'.category? id = some { c with units := us } ∧
      PutInto (·.id) { c with units := us } l.categories l'.categories
  | .deleteUnit id unitId =>
    SameButCategories l l' ∧ ∃ c us, l.category? id = some c ∧ RemovedFrom (·.id) unitId c.units us ∧
      l'.category? id = some { c with units := us } ∧
      PutInto (·.id) { c with units := us } l.categories l'.categories ∧
      (l'.apply (.deleteUnit id unitId)).result = .error (.unitNotFound unitId)
  | .saveFormula f => SameButFormulas l l' ∧ PutInto (·.id) f l.formulas l'.formulas
  | .deleteFormula id =>
    SameButFormulas l l' ∧ RemovedFrom (·.id) id l.formulas l'.formulas ∧
      (l'.apply (.deleteFormula id)).result = .error (.formulaNotFound id)

variable {l l' : Library} {m : Mutation} {e : Event} {id : Uuid} {c d old : Category}

theorem formula?_isSome : (l.formula? id).isSome = l.formulas.any fun f => f.id = id :=
  List.isSome_find?

/-- **The mutations that succeed are those that are permitted.** -/
theorem exists_result_apply_eq_ok : (∃ l', (l.apply m).result = .ok l') ↔ l.Permits m := by
  simp only [result_apply_eq_ok]
  constructor
  · rintro ⟨l', e, change⟩
    cases change with
    | insertCategory valid new => exact ⟨valid, fun old found => by rw [new] at found; cases found⟩
    | replaceCategory valid found user =>
      exact ⟨valid, fun old same => Option.some.inj (found.symm.trans same) ▸ user⟩
    | deleteCategory found user => exact ⟨_, found, user⟩
    | insertUnit valid found new =>
      exact ⟨valid, _, found, fun old foundUnit => by rw [new] at foundUnit; cases foundUnit⟩
    | replaceUnit valid found foundUnit user =>
      exact ⟨valid, _, found, fun old same => Option.some.inj (foundUnit.symm.trans same) ▸ user⟩
    | deleteUnit found foundUnit user => exact ⟨_, found, _, foundUnit, user⟩
    | insertFormula parsed new => exact ⟨_, parsed⟩
    | replaceFormula parsed found => exact ⟨_, parsed⟩
    | deleteFormula found => exact Option.isSome_iff_exists.1 (formula?_isSome.trans found)
  · intro permitted
    cases m with
    | saveCategory c =>
      obtain ⟨valid, user⟩ := permitted
      cases found : l.category? c.id with
      | none => exact ⟨_, _, .insertCategory valid found⟩
      | some old => exact ⟨_, _, .replaceCategory valid found (user old found)⟩
    | deleteCategory id =>
      obtain ⟨old, found, user⟩ := permitted
      exact ⟨_, _, .deleteCategory found user⟩
    | saveUnit id u =>
      obtain ⟨valid, c, found, user⟩ := permitted
      cases foundUnit : c.unit? u.id with
      | none => exact ⟨_, _, .insertUnit valid found foundUnit⟩
      | some old => exact ⟨_, _, .replaceUnit valid found foundUnit (user old foundUnit)⟩
    | deleteUnit id unitId =>
      obtain ⟨c, found, old, foundUnit, user⟩ := permitted
      exact ⟨_, _, .deleteUnit found foundUnit user⟩
    | saveFormula f =>
      obtain ⟨tree, parsed⟩ := permitted
      cases found : l.formulas.any fun g => g.id = f.id with
      | false => exact ⟨_, _, .insertFormula parsed found⟩
      | true => exact ⟨_, _, .replaceFormula parsed found⟩
    | deleteFormula id =>
      have found := formula?_isSome.symm.trans (Option.isSome_iff_exists.2 permitted)
      exact ⟨_, _, .deleteFormula found⟩

/-! ## Deletions that cannot be made again -/

theorem result_deleteCategory_of_gone (gone : l.category? id = none) :
    (l.apply (.deleteCategory id)).result = .error (.categoryNotFound id) := by
  rw [apply, Library.deleteCategory, gone]
  rfl

theorem result_deleteUnit_of_gone {unitId : Uuid} (found : l.category? id = some c)
    (gone : c.unit? unitId = none) :
    (l.apply (.deleteUnit id unitId)).result = .error (.unitNotFound unitId) := by
  rw [apply, Library.deleteUnit, found]
  dsimp only
  rw [gone]
  rfl

theorem result_deleteFormula_of_gone (gone : l.formula? id = none) :
    (l.apply (.deleteFormula id)).result = .error (.formulaNotFound id) := by
  rw [apply, Library.deleteFormula, ← formula?_isSome, gone]
  rfl

/-! ## Mutations as changes of ordered maps -/

/-- A category that is changed in its place is put into the library. -/
theorem putInto_setCategory (distinct : l.Distinct) (found : l.category? d.id = some old) :
    PutInto (·.id) d l.categories (l.setCategory d).categories :=
  (put_updateFirst found).putInto distinct.categories

theorem Change.effect (h : Change l m e l') (distinct : l.Distinct)
    (distinctUnits : ∀ c ∈ l.categories, c.Distinct) : Effect l l' m := by
  cases h with
  | insertCategory valid new =>
    exact ⟨rfl, (Put.atEnd (id_ne_of_category? new)).putInto distinct.categories⟩
  | replaceCategory valid found user => exact ⟨rfl, putInto_setCategory distinct found⟩
  | deleteCategory found user =>
    have removed := (removed_eraseP found).removedFrom distinct.categories
    exact ⟨rfl, removed, result_deleteCategory_of_gone removed.gone⟩
  | @insertUnit _ u c valid found new =>
    obtain rfl := id_of_category? found
    have units := distinctUnits c (mem_of_category? found)
    have put := (Put.atEnd (id_ne_of_unit? new)).putInto units
    exact ⟨rfl, c, _, found, put, category?_setCategory found, putInto_setCategory distinct found⟩
  | @replaceUnit _ u old c valid found foundUnit user =>
    obtain rfl := id_of_category? found
    have units := distinctUnits c (mem_of_category? found)
    have put := (put_updateFirst foundUnit).putInto units
    exact ⟨rfl, c, _, found, put, category?_setCategory found, putInto_setCategory distinct found⟩
  | @deleteUnit _ unitId old c found foundUnit user =>
    obtain rfl := id_of_category? found
    have units := distinctUnits c (mem_of_category? found)
    have removed := (removed_eraseP foundUnit).removedFrom units
    exact ⟨rfl, c, _, found, removed, category?_setCategory found, putInto_setCategory distinct found,
      result_deleteUnit_of_gone (category?_setCategory found) removed.gone⟩
  | insertFormula parsed new =>
    have new := by simpa using new
    exact ⟨rfl, (Put.atEnd new).putInto distinct.formulas⟩
  | replaceFormula parsed found =>
    obtain ⟨old, found⟩ := Option.isSome_iff_exists.1 (formula?_isSome.trans found)
    exact ⟨rfl, (put_updateFirst found).putInto distinct.formulas⟩
  | deleteFormula found =>
    obtain ⟨old, found⟩ := Option.isSome_iff_exists.1 (formula?_isSome.trans found)
    have removed := (removed_eraseP found).removedFrom distinct.formulas
    exact ⟨rfl, removed, result_deleteFormula_of_gone removed.gone⟩

/-- **A library is an ordered map of ordered maps.** Take any library whose categories, formulas and units of
each category are told apart by their identifiers. Those mutations of it succeed that are permitted, and they
have their effect; one that fails leaves the library as it was. Identifiers tell things apart afterwards as
well, if they do so within a category that is saved. -/
theorem apply_orderedMap (distinct : l.Distinct) (distinctUnits : ∀ c ∈ l.categories, c.Distinct)
    (m : Mutation) :
    ((∃ l', (l.apply m).result = .ok l') ↔ l.Permits m) ∧
      (∀ l', (l.apply m).result = .ok l' → Effect l l' m) ∧
      (∀ e, (l.apply m).result = .error e → l.next m = l) ∧
      (l.next m).Distinct ∧
      ((∀ c, m = .saveCategory c → c.Distinct) → ∀ c ∈ (l.next m).categories, c.Distinct) := by
  refine ⟨exists_result_apply_eq_ok, fun l' done => ?_, fun e => next_of_error, ?_, fun saved c hc => ?_⟩
  · obtain ⟨e, change⟩ := result_apply_eq_ok.1 done
    exact change.effect distinct distinctUnits
  · exact distinct.after [m]
  · rcases l.next_eq_or_change m with same | ⟨e, change⟩
    · exact distinctUnits c (same ▸ hc)
    · have before : l.DistinctUnits c.id := fun d hd _ => distinctUnits d hd
      exact change.distinctUnits (fun d isSave _ => saved d isSave) before c hc rfl

/-- Of two units one is deleted, which cannot be deleted again. -/
theorem apply_orderedMap_pair :
    ∃ l', (apply { categories := [pair] } (.deleteUnit .nil .nil)).result = .ok l' ∧
      (∃ c us, category? { categories := [pair] } .nil = some c ∧
        RemovedFrom (·.id) .nil c.units us ∧ l'.category? .nil = some { c with units := us }) ∧
      (l'.apply (.deleteUnit .nil .nil)).result = .error (.unitNotFound .nil) := by
  have distinct : Distinct { categories := [pair] } := ⟨by decide +kernel, by decide +kernel⟩
  have distinctUnits : ∀ c ∈ [pair], c.Distinct := by decide +kernel
  have permitted : Permits { categories := [pair] } (.deleteUnit .nil .nil) :=
    ⟨pair, by decide +kernel, .user .nil "One" "a" 1, by decide +kernel, rfl⟩
  obtain ⟨succeeds, effect, -⟩ := apply_orderedMap distinct distinctUnits (.deleteUnit .nil .nil)
  obtain ⟨l', done⟩ := succeeds.2 permitted
  obtain ⟨-, c, us, found, removed, later, -, again⟩ := effect l' done
  exact ⟨l', done, ⟨c, us, found, removed, later⟩, again⟩

end Library

end UnitCalc
