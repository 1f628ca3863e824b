import UnitCalc.Proofs.Library.FirstItem
import UnitCalc.Proofs.Library.Runs

/-!
# `Proofs.Library.Permanence` — what is built in stays

A mutation looks up what it is about and tests the flag of what it found. Replacing and deleting whole
categories tests the flag of the category, replacing and deleting units that of the unit. This gives two
laws of runs.

* A built-in category stays for ever, and so do the built-in units that it has (`builtIn_kept_after`).
* A built-in unit of any category stays in it until the category is deleted or replaced as a whole
  (`holds_after_or_discarded`); for a category of a user nothing prevents that
  (`not_holds_after_deleteCategory`).

Both follow from one step lemma, `Change.kept`. It is about some categories, chosen by a test, among which
is none that the change replaces or deletes as a whole; the others may only have their units changed, and
then their built-in units are kept.
-/

namespace UnitCalc

/-- What a category keeps while only its units are changed: its identifier, its name, its flag, and its
built-in units in their order. -/
structure Category.Keeps (c d : Category) : Prop where
  id : d.id = c.id
  name : d.name = c.name
  isBuiltIn : d.isBuiltIn = c.isBuiltIn
  units : (c.units.filter (·.isBuiltIn)).Sublist d.units

namespace Category.Keeps

instance : Std.Refl Category.Keeps where
  refl _ := ⟨rfl, rfl, rfl, List.filter_sublist⟩

instance : IsTrans Category Category.Keeps where
  trans c d e cd de := by
    refine ⟨de.id.trans cd.id, de.name.trans cd.name, de.isBuiltIn.trans cd.isBuiltIn, ?_⟩
    have builtIn := cd.units.filter (·.isBuiltIn)
    rw [List.filter_filter] at builtIn
    simp only [Bool.and_self] at builtIn
    exact builtIn.trans de.units

theorem mem_units {c d : Category} {u : UnitDef} (keeps : c.Keeps d) (h : u ∈ c.units)
    (builtIn : u.isBuiltIn = true) : u ∈ d.units :=
  keeps.units.subset (List.mem_filter.2 ⟨h, builtIn⟩)

end Category.Keeps

/-- The mutation is about the category with the identifier as a whole. -/
def Mutation.OnCategory (id : Uuid) : Mutation → Prop
  | .saveCategory c => c.id = id
  | .deleteCategory id' => id' = id
  | _ => False

/-- The mutation is to take a unit away from a category by deleting the category, or by replacing it by
one without the unit. -/
def Mutation.Discards (id : Uuid) (u : UnitDef) : Mutation → Prop
  | .deleteCategory id' => id' = id
  | .saveCategory c => c.id = id ∧ u ∉ c.units
  | _ => False

namespace Library

variable {l l' l'' : Library} {m : Mutation} {e : Event} {id : Uuid} {c d : Category} {u : UnitDef}

/-! ## One change -/

/-- Changing the units of a category keeps all categories if it keeps this one. -/
theorem kept_setCategory {p : Category → Bool} (found : l.category? id = some c) (keeps : c.Keeps d) :
    List.SublistForall₂ Category.Keeps (l.categories.filter p) (l.setCategory d).categories := by
  obtain rfl := id_of_category? found
  have updated : List.Forall₂ Category.Keeps l.categories (l.setCategory d).categories := by
    rw [setCategory, keeps.id]
    exact forall₂_updateFirst found keeps
  have all := List.sublistForall₂_iff.2 ⟨_, updated, .refl _⟩
  exact trans List.filter_sublist.sublistForall₂ all

/-- **A change keeps the categories that it does not replace or delete as a whole**, and it does that to no
built-in category. -/
theorem Change.kept (h : Change l m e l') {p : Category → Bool}
    (spared : ∀ c, m.OnCategory c.id → c.isBuiltIn = false → p c = false) :
    List.SublistForall₂ Category.Keeps (l.categories.filter p) l'.categories := by
  cases h with
  | insertCategory valid new =>
    exact (List.filter_sublist.trans (List.sublist_append_left _ _)).sublistForall₂
  | replaceCategory valid found user =>
    have other := spared _ (id_of_category? found).symm user
    exact (filter_sublist_updateFirst found other).sublistForall₂
  | deleteCategory found user =>
    have other := spared _ (id_of_category? found).symm user
    exact (filter_sublist_eraseP found other).sublistForall₂
  | insertUnit valid found new =>
    refine kept_setCategory found ⟨rfl, rfl, rfl, ?_⟩
    exact List.filter_sublist.trans (List.sublist_append_left _ _)
  | replaceUnit valid found foundUnit user =>
    exact kept_setCategory found ⟨rfl, rfl, rfl, filter_sublist_updateFirst foundUnit user⟩
  | deleteUnit found foundUnit user =>
    exact kept_setCategory found ⟨rfl, rfl, rfl, filter_sublist_eraseP foundUnit user⟩
  | insertFormula parsed new => exact List.filter_sublist.sublistForall₂
  | replaceFormula parsed found => exact List.filter_sublist.sublistForall₂
  | deleteFormula found => exact List.filter_sublist.sublistForall₂

/-! ## Built-in categories -/

/-- The built-in categories of a library are kept by the other one, in their order. -/
def BuiltInKept (l l' : Library) : Prop :=
  List.SublistForall₂ Category.Keeps (l.categories.filter (·.isBuiltIn))
    (l'.categories.filter (·.isBuiltIn))

theorem BuiltInKept.trans (h : BuiltInKept l l') (h' : BuiltInKept l' l'') : BuiltInKept l l'' :=
  IsTrans.trans (r := List.SublistForall₂ Category.Keeps) _ _ _ h h'

theorem Change.builtInKept (h : Change l m e l') : BuiltInKept l l' := by
  refine sublistForall₂_filter (h.kept fun c _ user => user) fun c hc d keeps => ?_
  exact keeps.isBuiltIn.trans (List.mem_filter.1 hc).2

theorem BuiltInKept.after (l : Library) (ms : List Mutation) : BuiltInKept l (l.after ms) :=
  invariant_after (fun change before => before.trans change.builtInKept)
    (refl (l.categories.filter (·.isBuiltIn))) ms

/-- **What is built in at first is there for ever.** After any mutations of any library, among its
categories are all that were built in at first, in their order, each with the same identifier, name and
flag, and with all units that were built in at first, unchanged and in their order. -/
theorem builtIn_kept_after (l : Library) (ms : List Mutation) :
    ∃ kept, kept.Sublist (l.after ms).categories
      ∧ List.Forall₂ Category.Keeps (l.categories.filter (·.isBuiltIn)) kept := by
  obtain ⟨kept, keeps, among⟩ := List.sublistForall₂_iff.1 (BuiltInKept.after l ms)
  exact ⟨kept, among.trans List.filter_sublist, keeps⟩

/-! ## Built-in units of any category -/

/-- A category with the identifier has the unit. -/
def Holds (l : Library) (id : Uuid) (u : UnitDef) : Prop :=
  ∃ c ∈ l.categories, c.id = id ∧ u ∈ c.units

/-- A category that is saved is in the library then. -/
theorem Change.mem_saved (h : Change l (.saveCategory c) e l') : c ∈ l'.categories := by
  cases h with
  | insertCategory valid new => exact List.mem_append_right _ (List.mem_singleton_self c)
  | replaceCategory valid found user => exact mem_updateFirst_self found

/-- **A change takes a built-in unit away from its category only with the category as a whole.** -/
theorem Change.holds_or_discards (h : Change l m e l') (held : l.Holds id u)
    (builtIn : u.isBuiltIn = true) : l'.Holds id u ∨ m.Discards id u := by
  by_cases whole : m.OnCategory id
  · cases m with
    | saveCategory c =>
      by_cases inside : u ∈ c.units
      · exact .inl ⟨c, h.mem_saved, whole, inside⟩
      · exact .inr ⟨whole, inside⟩
    | deleteCategory id' => exact .inr whole
    | _ => cases whole
  · obtain ⟨c, hc, rfl, inside⟩ := held
    -- the test that `kept` asks for picks the categories with this identifier
    have kept := h.kept (p := fun d => d.id = c.id) fun d onCategory _ =>
      decide_eq_false fun same => whole (same ▸ onCategory)
    obtain ⟨d, hd, keeps⟩ := exists_mem_of_sublistForall₂ kept (List.mem_filter.2 ⟨hc, by simp⟩)
    exact .inl ⟨d, hd, keeps.id, keeps.mem_units inside builtIn⟩

/-- **A built-in unit leaves its category only with the category as a whole.** If a category of any library
has a built-in unit, then after any mutations the category with its identifier still has it, unchanged,
unless one of these mutations succeeded in deleting that category or in replacing it by one without the
unit. -/
theorem holds_after_or_discarded (held : l.Holds id u) (builtIn : u.isBuiltIn = true)
    (ms : List Mutation) :
    (l.after ms).Holds id u ∨
      ∃ before m later l', ms = before ++ m :: later ∧ m.Discards id u
        ∧ ((l.after before).apply m).result = .ok l' := by
  by_cases still : (l.after ms).Holds id u
  · exact .inl still
  · obtain ⟨before, m, later, e, l', split, held, change, gone⟩ :=
      exists_change_of_lost (P := fun l => l.Holds id u) held still
    have discards := (change.holds_or_discards held builtIn).resolve_left gone
    exact .inr ⟨before, m, later, l', split, discards, result_apply_eq_ok.2 ⟨e, change⟩⟩

/-- A built-in unit. -/
def fixed : UnitDef :=
  .builtIn .nil "Fixed" "fx" 2 {}

/-- A category of a user that has the unit. -/
def lent : Category :=
  { id := .nil, name := "Lent", units := [fixed] }

theorem after_saveCategory_lent : empty.after [.saveCategory lent] = { categories := [lent] } := by
  decide +kernel

/-- The unit cannot be deleted for itself. -/
theorem holds_after_deleteUnit_fixed :
    Holds { categories := [lent] } .nil fixed ∧
      (after { categories := [lent] } [.deleteUnit .nil .nil]).Holds .nil fixed := by
  have held : Holds { categories := [lent] } .nil fixed :=
    ⟨lent, List.mem_singleton_self lent, rfl, List.mem_singleton_self fixed⟩
  refine ⟨held, (holds_after_or_discarded held rfl [.deleteUnit .nil .nil]).resolve_right ?_⟩
  rintro ⟨before, m, later, l', split, discards, -⟩
  have hm : m ∈ before ++ m :: later := List.mem_append_right before List.mem_cons_self
  obtain rfl := List.mem_singleton.1 (split ▸ hm)
  exact discards

/-- **Built-in units can be deleted with a category of a user**: it is not so that whatever mutations lead to
a library, a built-in unit in a category of a user is still in it after any further one. -/
theorem not_holds_after_deleteCategory :
    ¬ ∀ (ms : List Mutation), ∀ c ∈ (empty.after ms).categories, c.isBuiltIn = false →
      ∀ u ∈ c.units, u.isBuiltIn = true → ∀ m, ((empty.after ms).next m).Holds c.id u := by
  intro always
  have hc : lent ∈ (empty.after [.saveCategory lent]).categories := by
    rw [after_saveCategory_lent]
    exact List.mem_singleton_self lent
  obtain ⟨c, hc, -⟩ :=
    always _ lent hc rfl fixed (List.mem_singleton_self fixed) rfl (.deleteCategory .nil)
  have nothing : ((empty.after [.saveCategory lent]).next (.deleteCategory .nil)).categories = [] := by
    decide +kernel
  rw [nothing] at hc
  cases hc

end Library

end UnitCalc
