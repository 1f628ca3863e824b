import UnitCalc.Text.Quoted
import UnitCalc.Unit.Definition

/-!
# `UnitCalc.Library.Event` — errors and events of a library

An operation on a library, or on a store that keeps one, gives a result or a cause of failure, and
reports events on the way, failing or not.

## Contents
- **Errors.** `StoreError`.
- **Events.** `Event`, with its `Event.level` and its `Event.text`; `Event.line` is a line of a log.
- **Attempts.** `Attempt`: events and a result, and their order when attempts follow one another.
-/

namespace UnitCalc

open Formula

/-- Why an operation on a library or a store fails. -/
inductive StoreError where
  /-- A file could not be read or written. -/
  | io
  /-- A document has not the form of a library. -/
  | json
  | unsupportedVersion (found supported : UInt32)
  | categoryNotFound (id : Uuid)
  | unitNotFound (id : Uuid)
  | formulaNotFound (id : Uuid)
  /-- The category or unit with the name is built in. -/
  | builtIn (name : String)
  | invalidUnit (name : String) (cause : UnitError)
  | invalidFormula (name : String) (cause : ParseError)
deriving DecidableEq, Repr

def StoreError.message : StoreError → String
  | io => "IO error"
  | json => "JSON error"
  | unsupportedVersion found supported =>
    s!"Unsupported library version {found}, expected at most {supported}"
  | categoryNotFound id => s!"Category not found: {id.text}"
  | unitNotFound id => s!"Unit not found: {id.text}"
  | formulaNotFound id => s!"Formula not found: {id.text}"
  | builtIn name => s!"'{name}' is system-defined and cannot be changed"
  | invalidUnit name cause => s!"Invalid unit '{name}': {cause.message}"
  | invalidFormula name cause => s!"Invalid formula '{name}': {cause.message}"

/-- How important an event is. -/
inductive Level where
  | debug | info | warn
deriving DecidableEq, Repr

def Level.text : Level → String
  | debug => "DEBUG"
  | info => "INFO"
  | warn => "WARN"

/-- What an operation reports. -/
inductive Event where
  | insertedCategory (id : Uuid) (name : String) (units : Nat)
  | replacedCategory (id : Uuid) (name : String)
  | deletedCategory (id : Uuid) (units : Nat)
  | insertedUnit (id : Uuid) (symbol : String) (category : Uuid)
  | replacedUnit (id category : Uuid)
  | deletedUnit (id category : Uuid)
  | insertedFormula (id : Uuid) (name : String)
  | replacedFormula (id : Uuid)
  | deletedFormula (id : Uuid)
  | rejectedUnit (name : String) (cause : UnitError)
  | rejectedFormula (name : String) (cause : ParseError)
  /-- The category or unit with the name is built in and was left alone. -/
  | refused (name : String)
  | wrote (path : String)
  | loaded (categories formulas : Nat) (path : String)
  /-- There is no document yet. -/
  | startedEmpty (path : String)
  | seeded (categories : Nat)
deriving DecidableEq, Repr

namespace Event

def level : Event → Level
  | rejectedUnit _ _ | rejectedFormula _ _ | refused _ => .warn
  | loaded _ _ _ | startedEmpty _ | seeded _ => .info
  | _ => .debug

def text : Event → String
  | insertedCategory id name units => s!"insert category id={id.text} name={name} units={units}"
  | replacedCategory id name => s!"replace category id={id.text} name={name}"
  | deletedCategory id units => s!"delete category id={id.text} units_removed={units}"
  | insertedUnit id symbol category =>
    s!"insert unit id={id.text} symbol={symbol} category_id={category.text}"
  | replacedUnit id category => s!"replace unit id={id.text} category_id={category.text}"
  | deletedUnit id category => s!"delete unit id={id.text} category_id={category.text}"
  | insertedFormula id name => s!"insert formula id={id.text} name={name}"
  | replacedFormula id => s!"replace formula id={id.text}"
  | deletedFormula id => s!"delete formula id={id.text}"
  | rejectedUnit name cause => s!"rejected unit name={name}: {cause.message}"
  | rejectedFormula name cause => s!"rejected formula name={name}: {cause.message}"
  | refused name => s!"refused to modify system-defined '{name}'"
  | wrote path => s!"wrote library to {Text.quoted path}"
  | loaded categories formulas path =>
    s!"loaded {categories} categories and {formulas} formulas from {Text.quoted path}"
  | startedEmpty path => s!"no library at {Text.quoted path}, starting empty"
  | seeded categories => s!"seeded {categories} built-in categories"

/-- The event as a line of a log: its level, the part of the program, its text. -/
def line (e : Event) : String :=
  s!"{e.level.text} STORE {e.text}"

end Event

/-! ## Attempts -/

/-- The events that an operation reported, and its result. -/
structure Attempt (α : Type) where
  events : List Event
  result : Except StoreError α
deriving Repr

namespace Attempt

variable {α β : Type}

/-- Succeeds without a report. -/
def ok (a : α) : Attempt α := ⟨[], .ok a⟩

/-- Fails without a report. -/
def fail (e : StoreError) : Attempt α := ⟨[], .error e⟩

/-- Reports an event. -/
def report (e : Event) : Attempt Unit := ⟨[e], .ok ()⟩

/-- Goes on with the result of an attempt; a failure ends it, and its reports stay. -/
def andThen (a : Attempt α) (f : α → Attempt β) : Attempt β :=
  match a.result with
  | .ok x => ⟨a.events ++ (f x).events, (f x).result⟩
  | .error e => ⟨a.events, .error e⟩

instance : Monad Attempt where
  pure := ok
  bind := andThen

end Attempt

end UnitCalc
