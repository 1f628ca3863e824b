import UnitCalc.Library.Loading
import UnitCalc.Store.Basic
import UnitCalc.Store.Disk

/-!
# `UnitCalc.Store.File` — a store in a file

A file store keeps its library as a document on a disk, and a copy of it at hand. A mutation is
applied to the copy, the document is replaced, and only then the new copy is kept, so that the two
never disagree.

## Contents
- **File stores.** `FileStore`.
- **Opening.** `FileStore.open?`: a missing document is an empty library.
- **Mutations.** `FileStore.commit`, `FileStore.apply`.
- **Interruptions.** `FileStore.during`: the states in which one may leave the disk.
-/

namespace UnitCalc

/-- A library, and the disk with its document. -/
structure FileStore where
  /-- The path of the document, as events name it. -/
  path : String
  library : Library
  disk : Disk
deriving DecidableEq, Repr

namespace FileStore

/-- The library that a disk holds. -/
def load (path : String) (d : Disk) : Attempt Library :=
  match d.document with
  | none => do
    .report (.startedEmpty path)
    return .empty
  | some .directory => .fail .io
  | some .garbled => .fail .io
  | some (.file text) => do
    let l ← Library.ofDocument text
    .report (.loaded l.categories.length l.formulas.length path)
    return l

/-- Opens the document on a disk. Nothing is written. -/
def open? (path : String) (d : Disk) : Attempt FileStore := do
  let l ← load path d
  return ⟨path, l, d⟩

/-- Opens the document again, and keeps the store as it is when that fails. -/
def reopen (s : FileStore) : FileStore × Attempt Unit :=
  let a := open? s.path s.disk
  match a.result with
  | .ok s => (s, ⟨a.events, .ok ()⟩)
  | .error e => (s, ⟨a.events, .error e⟩)

/-- Replaces the document by that of a new library, and then keeps the library. -/
def commit (s : FileStore) (l : Library) : FileStore × Attempt Unit :=
  match s.disk.replace l.document with
  | (disk, true) => ({ s with library := l, disk }, .report (.wrote s.path))
  | (disk, false) => ({ s with disk }, .fail .io)

/-- Applies a mutation to the library and to its document. -/
def apply (s : FileStore) (m : Mutation) : FileStore × Attempt Unit :=
  let a := s.library.apply m
  match a.result with
  | .error e => (s, ⟨a.events, .error e⟩)
  | .ok l =>
    let (s, written) := s.commit l
    (s, ⟨a.events ++ written.events, written.result⟩)

instance : Store FileStore where
  library := FileStore.library
  apply := apply

/-- The states in which an interruption of a mutation may leave the disk. -/
def during (s : FileStore) (m : Mutation) : List Disk :=
  match (s.library.apply m).result with
  | .ok l => s.disk.during l.document
  | .error _ => [s.disk]

end FileStore

end UnitCalc
