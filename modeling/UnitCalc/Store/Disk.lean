/-!
# `UnitCalc.Store.Disk` — the place of a document

A document has a path, and is replaced through a temporary file beside it: the directory is made,
the new text is written to the temporary file, and that file is renamed to the path. A reader sees
the old document up to the renaming and the new one after it. Each of the three steps may fail,
because of what stands in its way or because of a fault.

## Contents
- **Places.** `Entry`, `Parent`, `Disk`.
- **Steps.** `Fault`, `DiskStep`, `Disk.step`, `Disk.steps`.
- **Replacing.** `replacement`, `Disk.replace`.
- **Interruptions.** `Disk.during`: the states in which an interruption may leave the disk.
- **By hand.** What others may do to the same places.
-/

namespace UnitCalc

/-! ## Places -/

/-- What stands at a path. -/
inductive Entry where
  | file (text : String)
  /-- A file whose bytes are no text, as when a part of one ends inside a character. -/
  | garbled
  | directory
deriving DecidableEq, Repr

/-- What stands where the directory of the document belongs. -/
inductive Parent where
  | missing
  | directory
  /-- A plain file, beneath which nothing can be made. -/
  | blocked
deriving DecidableEq, Repr

/-- Something that goes wrong in one replacement although nothing is in its way. -/
inductive Fault where
  | directory
  /-- The new text does not reach the temporary file, or not all of it. Whatever is then in the place
      of that file is left there. -/
  | writing (left : Option Entry)
  | renaming
deriving DecidableEq, Repr

/-- The places of a document and of its temporary file. -/
structure Disk where
  parent : Parent := .directory
  document : Option Entry := none
  temporary : Option Entry := none
  /-- What goes wrong in the next replacements, one after another. Nothing does in later ones. -/
  faults : List (Option Fault) := []
deriving DecidableEq, Repr

/-! ## Steps -/

/-- A step of a replacement. -/
inductive DiskStep where
  | makeDirectory
  | writeTemporary (text : String)
  /-- The temporary file takes the place of the document. -/
  | rename
deriving DecidableEq, Repr

/-- What a replacement does, in its order. -/
def replacement (text : String) : List DiskStep :=
  [.makeDirectory, .writeTemporary text, .rename]

namespace Disk

/-- The disk after a step, and whether the step succeeds. -/
def step (fault : Option Fault) (d : Disk) : DiskStep → Disk × Bool
  | .makeDirectory =>
    if fault = some .directory ∨ d.parent = .blocked then (d, false)
    else ({ d with parent := .directory }, true)
  | .writeTemporary text =>
    if d.temporary = some .directory then (d, false)
    else
      match fault with
      | some (.writing left) => ({ d with temporary := left }, false)
      | _ => ({ d with temporary := some (.file text) }, true)
  | .rename =>
    if fault = some .renaming ∨ d.document = some .directory then (d, false)
    else ({ d with document := d.temporary, temporary := none }, true)

/-- The disk after some steps, of which the first one that fails is the last one. -/
def steps (fault : Option Fault) (d : Disk) : List DiskStep → Disk × Bool
  | [] => (d, true)
  | s :: ss =>
    match d.step fault s with
    | (d, true) => steps fault d ss
    | (d, false) => (d, false)

/-- What goes wrong in the next replacement. -/
def nextFault (d : Disk) : Option Fault :=
  d.faults.head?.join

/-- The disk once the next replacement has begun. -/
def begun (d : Disk) : Disk :=
  { d with faults := d.faults.tail }

/-- Replaces the document by a new text, and says whether it did. -/
def replace (text : String) (d : Disk) : Disk × Bool :=
  d.begun.steps d.nextFault (replacement text)

/-! ## Interruptions -/

/-- The states in which an interruption of a step may leave the disk. A file is written byte by byte,
    and is garbled between the bytes of one character; a directory is made, and a file renamed, all at
    once. -/
def duringStep (d : Disk) : DiskStep → List Disk
  | .writeTemporary text =>
    if d.temporary = some .directory then [d]
    else d :: { d with temporary := some .garbled } :: (List.range (text.length + 1)).map fun n =>
      { d with temporary := some (.file (String.ofList (text.toList.take n))) }
  | _ => [d]

/-- The states in which an interruption of some steps may leave the disk. -/
def duringSteps (fault : Option Fault) (d : Disk) : List DiskStep → List Disk
  | [] => [d]
  | s :: ss =>
    d.duringStep s ++
      match d.step fault s with
      | (d, true) => duringSteps fault d ss
      | (d, false) => [d]

/-- The states in which an interruption of a replacement may leave the disk. -/
def during (text : String) (d : Disk) : List Disk :=
  d.begun.duringSteps d.nextFault (replacement text)

/-! ## By hand -/

/-- The text of the document, if it can be read. -/
def text? (d : Disk) : Option String :=
  match d.document with
  | some (.file text) => some text
  | _ => none

/-- Writes the document in place, which needs its directory. -/
def overwrite (text : String) (d : Disk) : Disk :=
  if d.parent = .directory ∧ d.document ≠ some .directory then
    { d with document := some (.file text) }
  else d

/-- A plain file is gone afterwards; a directory stays. -/
def withoutFile : Option Entry → Option Entry
  | some (.file _) => none
  | some .garbled => none
  | e => e

/-- A directory is gone afterwards; a plain file stays. -/
def withoutDirectory : Option Entry → Option Entry
  | some .directory => none
  | e => e

/-- Removes the document if it is a plain file. -/
def removeFile (d : Disk) : Disk :=
  { d with document := withoutFile d.document }

/-- Makes a directory where the document belongs, if nothing stands there. -/
def makeDirectory (d : Disk) : Disk :=
  if d.parent = .blocked then d
  else { d with parent := .directory, document := some (d.document.getD .directory) }

/-- Removes the directory where the document belongs. -/
def removeDirectory (d : Disk) : Disk :=
  { d with document := withoutDirectory d.document }

/-- Makes a directory where the temporary file belongs, if nothing stands there. -/
def block (d : Disk) : Disk :=
  if d.parent = .blocked then d
  else { d with parent := .directory, temporary := some (d.temporary.getD .directory) }

/-- Removes the directory where the temporary file belongs. -/
def unblock (d : Disk) : Disk :=
  { d with temporary := withoutDirectory d.temporary }

end Disk

end UnitCalc
