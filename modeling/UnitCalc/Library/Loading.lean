import UnitCalc.Document.Library
import UnitCalc.Library.Mutation

/-!
# `UnitCalc.Library.Loading` — libraries from documents

A document is accepted when it has the form of a library, its version is known, and every unit in
it is valid, since a document may have been edited by hand.
-/

namespace UnitCalc.Library

/-- The library in a document. -/
def ofDocument (document : String) : Attempt Library :=
  match Document.readLibrary? document with
  | none => .fail .json
  | some l =>
    if libraryVersion < l.version then .fail (.unsupportedVersion l.version libraryVersion)
    else do
      checkUnits l.units
      return l

/-- The document of a library. -/
def document (l : Library) : String :=
  Document.libraryText l

end UnitCalc.Library
