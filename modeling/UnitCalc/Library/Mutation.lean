import UnitCalc.Library.Basic
import UnitCalc.Library.Event

/-!
# `UnitCalc.Library.Mutation` — changing a library

A library is changed by saving and deleting categories, units and formulas. What is saved must be
valid; it takes the place of what has the same identifier, or else comes last. What is built in
cannot be replaced or deleted, but users may add units to built-in categories. A change happens
completely or not at all.

## Contents
- **Lists.** `updateFirst`.
- **Checks.** `checkUnit`, `checkUnits`, `refuse`.
- **Categories, units, formulas.** `saveCategory`, `deleteCategory`, `saveUnit`, `deleteUnit`,
  `saveFormula`, `deleteFormula`, and `category`, which looks one up.
- **Mutations.** `Mutation`, `Library.apply`.
-/

namespace UnitCalc

open Formula

/-- Changes the first item that satisfies a test. -/
def updateFirst {α : Type} (test : α → Bool) (change : α → α) : List α → List α
  | [] => []
  | a :: as => if test a then change a :: as else a :: updateFirst test change as

namespace Library

/-! ## Checks -/

/-- Refuses an invalid unit. -/
def checkUnit (u : UnitDef) : Attempt Unit :=
  match u.validate with
  | .ok () => .ok ()
  | .error e => do
    .report (.rejectedUnit u.name e)
    .fail (.invalidUnit u.name e)

/-- Refuses the first invalid unit of a list. -/
def checkUnits : List UnitDef → Attempt Unit
  | [] => .ok ()
  | u :: us => do
    checkUnit u
    checkUnits us

/-- Refuses to change what is built in. -/
def refuse {α : Type} (name : String) : Attempt α := do
  .report (.refused name)
  .fail (.builtIn name)

/-! ## Categories -/

/-- The first category with an identifier. -/
def category? (l : Library) (id : Uuid) : Option Category :=
  l.categories.find? fun c => c.id = id

/-- The first category with an identifier, whose absence is an error. -/
def category (l : Library) (id : Uuid) : Except StoreError Category :=
  match l.category? id with
  | some c => .ok c
  | none => .error (.categoryNotFound id)

/-- Puts a category in the place of the first one with its identifier. -/
def setCategory (l : Library) (c : Category) : Library :=
  { l with categories := updateFirst (fun d => d.id = c.id) (fun _ => c) l.categories }

def saveCategory (l : Library) (c : Category) : Attempt Library := do
  checkUnits c.units
  match l.category? c.id with
  | some old =>
    if old.isBuiltIn then refuse old.name
    else
      .report (.replacedCategory c.id c.name)
      return l.setCategory c
  | none =>
    .report (.insertedCategory c.id c.name c.units.length)
    return { l with categories := l.categories ++ [c] }

/-- Deletes a category with all its units. -/
def deleteCategory (l : Library) (id : Uuid) : Attempt Library :=
  match l.category? id with
  | none => .fail (.categoryNotFound id)
  | some c =>
    if c.isBuiltIn then refuse c.name
    else do
      .report (.deletedCategory id c.units.length)
      return { l with categories := l.categories.eraseP fun d => d.id = id }

/-! ## Units -/

def saveUnit (l : Library) (categoryId : Uuid) (u : UnitDef) : Attempt Library := do
  checkUnit u
  match l.category? categoryId with
  | none => .fail (.categoryNotFound categoryId)
  | some c =>
    match c.unit? u.id with
    | some old =>
      if old.isBuiltIn then refuse old.name
      else
        .report (.replacedUnit u.id categoryId)
        return l.setCategory
          { c with units := updateFirst (fun v => v.id = u.id) (fun _ => u) c.units }
    | none =>
      .report (.insertedUnit u.id u.symbol categoryId)
      return l.setCategory { c with units := c.units ++ [u] }

def deleteUnit (l : Library) (categoryId unitId : Uuid) : Attempt Library :=
  match l.category? categoryId with
  | none => .fail (.categoryNotFound categoryId)
  | some c =>
    match c.unit? unitId with
    | none => .fail (.unitNotFound unitId)
    | some u =>
      if u.isBuiltIn then refuse u.name
      else do
        .report (.deletedUnit unitId categoryId)
        return l.setCategory { c with units := c.units.eraseP fun v => v.id = unitId }

/-! ## Formulas -/

def saveFormula (l : Library) (f : Named) : Attempt Library :=
  match parse f.source with
  | .error e => do
    .report (.rejectedFormula f.name e)
    .fail (.invalidFormula f.name e)
  | .ok _ =>
    if l.formulas.any fun g => g.id = f.id then do
      .report (.replacedFormula f.id)
      return { l with formulas := updateFirst (fun g => g.id = f.id) (fun _ => f) l.formulas }
    else do
      .report (.insertedFormula f.id f.name)
      return { l with formulas := l.formulas ++ [f] }

def deleteFormula (l : Library) (id : Uuid) : Attempt Library :=
  if l.formulas.any fun g => g.id = id then do
    .report (.deletedFormula id)
    return { l with formulas := l.formulas.eraseP fun g => g.id = id }
  else .fail (.formulaNotFound id)

end Library

/-! ## Mutations -/

/-- A change to a library. -/
inductive Mutation where
  | saveCategory (c : Category)
  | deleteCategory (id : Uuid)
  | saveUnit (category : Uuid) (u : UnitDef)
  | deleteUnit (category unit : Uuid)
  | saveFormula (f : Named)
  | deleteFormula (id : Uuid)
deriving DecidableEq, Repr

/-- The library after a change, or why the change is not made. -/
def Library.apply (l : Library) : Mutation → Attempt Library
  | .saveCategory c => l.saveCategory c
  | .deleteCategory id => l.deleteCategory id
  | .saveUnit category u => l.saveUnit category u
  | .deleteUnit category unit => l.deleteUnit category unit
  | .saveFormula f => l.saveFormula f
  | .deleteFormula id => l.deleteFormula id

end UnitCalc
