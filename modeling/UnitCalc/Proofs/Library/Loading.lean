import UnitCalc.Library.Loading
import UnitCalc.Proofs.Document.Library
import UnitCalc.Proofs.Unit.Conversion

/-!
# `Proofs.Library.Loading` — which documents are accepted

A document is refused for its form, then for its version, then for its first invalid unit. What loading
the document of a library gives is therefore known from the library alone (`result_ofDocument_document`),
and a library that was accepted once is accepted again from its own document.

The check of the units stops at the first one that is invalid, so it is described by the first refusal
among them, `findSome?`.
-/

namespace UnitCalc

/-! ## Attempts -/

namespace Attempt

variable {α β : Type} {a : Attempt α} {f : α → Attempt β}

theorem bind_of_ok {x : α} (h : a.result = .ok x) :
    a >>= f = ⟨a.events ++ (f x).events, (f x).result⟩ := by
  show andThen a f = _
  rw [andThen, h]

theorem bind_of_error {e : StoreError} (h : a.result = .error e) : a >>= f = ⟨a.events, .error e⟩ := by
  show andThen a f = _
  rw [andThen, h]

/-- An attempt that goes on with another one succeeds if both do. -/
theorem exists_of_bind_eq_ok {b : β} (h : (a >>= f).result = .ok b) :
    ∃ x, a.result = .ok x ∧ (f x).result = .ok b := by
  cases first : a.result with
  | ok x =>
    rw [bind_of_ok first] at h
    exact ⟨x, rfl, h⟩
  | error e =>
    rw [bind_of_error first] at h
    cases h

end Attempt

/-! ## Units -/

/-- Why a unit is refused, if it is. -/
def UnitDef.refusal? (u : UnitDef) : Option StoreError :=
  match u.validate with
  | .ok () => none
  | .error e => some (.invalidUnit u.name e)

theorem UnitDef.refusal?_eq_none {u : UnitDef} : u.refusal? = none ↔ u.validate = .ok () := by
  rw [refusal?]
  cases u.validate <;> simp

/-- A valid unit has a finite factor. -/
theorem UnitDef.isFinite_factor {u : UnitDef} (h : u.validate = .ok ()) : u.factor.isFinite = true := by
  have factor : (u.factor.isFinite && decide (0 < u.factor)) = true := (validate_eq_ok.1 h).2.2.1
  exact (Bool.and_eq_true_iff.1 factor).1

namespace Library

theorem result_checkUnit (u : UnitDef) : (checkUnit u).result =
    match u.refusal? with
    | some e => .error e
    | none => .ok () := by
  rw [checkUnit, UnitDef.refusal?]
  cases u.validate <;> rfl

theorem result_checkUnit_eq_ok {u : UnitDef} : (checkUnit u).result = .ok () ↔ u.validate = .ok () := by
  rw [result_checkUnit, ← UnitDef.refusal?_eq_none]
  cases u.refusal? <;> simp

/-- **Units are refused for the first one that is invalid.** -/
theorem result_checkUnits (us : List UnitDef) : (checkUnits us).result =
    match us.findSome? UnitDef.refusal? with
    | some e => .error e
    | none => .ok () := by
  induction us with
  | nil => rfl
  | cons u us ih =>
    have first := result_checkUnit u
    rw [checkUnits, List.findSome?_cons]
    cases refusal : u.refusal? with
    | some e =>
      rw [refusal] at first
      rw [Attempt.bind_of_error first]
    | none =>
      rw [refusal] at first
      rw [Attempt.bind_of_ok first]
      exact ih

theorem findSome?_refusal?_eq_none {us : List UnitDef} :
    us.findSome? UnitDef.refusal? = none ↔ ∀ u ∈ us, u.validate = .ok () := by
  rw [List.findSome?_eq_none_iff]
  exact forall₂_congr fun u _ => UnitDef.refusal?_eq_none

theorem result_checkUnits_eq_ok {us : List UnitDef} :
    (checkUnits us).result = .ok () ↔ ∀ u ∈ us, u.validate = .ok () := by
  rw [result_checkUnits, ← findSome?_refusal?_eq_none]
  cases us.findSome? UnitDef.refusal? <;> simp

/-! ## Documents -/

/-- **What is said of a document**: its form, its version and its units are checked in this order. -/
theorem result_ofDocument (text : String) : (ofDocument text).result =
    match Document.readLibrary? text with
    | none => .error .json
    | some l =>
      if libraryVersion < l.version then .error (.unsupportedVersion l.version libraryVersion)
      else
        match l.units.findSome? UnitDef.refusal? with
        | some e => .error e
        | none => .ok l := by
  rw [ofDocument]
  cases Document.readLibrary? text with
  | none => rfl
  | some l =>
    have units := result_checkUnits l.units
    dsimp only
    split
    · rfl
    · cases refusal : l.units.findSome? UnitDef.refusal? with
      | some e =>
        rw [refusal] at units
        rw [Attempt.bind_of_error units]
      | none =>
        rw [refusal] at units
        rw [Attempt.bind_of_ok units]
        rfl

/-- What may be stored: a library of a known version whose units are valid. -/
structure Storable (l : Library) : Prop where
  version : l.version ≤ libraryVersion
  valid : ∀ u ∈ l.units, u.validate = .ok ()

theorem storable_empty : empty.Storable :=
  ⟨by decide, nofun⟩

theorem Storable.isFinite_factor {l : Library} (h : l.Storable) :
    l.units.all (·.factor.isFinite) = true :=
  List.all_eq_true.2 fun u hu => UnitDef.isFinite_factor (h.valid u hu)

theorem result_ofDocument_eq_ok {text : String} {l : Library} :
    (ofDocument text).result = .ok l ↔ Document.readLibrary? text = some l ∧ l.Storable := by
  rw [result_ofDocument]
  cases Document.readLibrary? text with
  | none => simp
  | some read =>
    dsimp only
    constructor
    · intro accepted
      split at accepted
      · cases accepted
      · next known =>
        split at accepted
        · cases accepted
        · next valid =>
          obtain rfl : read = l := Except.ok.inj accepted
          exact ⟨rfl, UInt32.not_lt.1 known, findSome?_refusal?_eq_none.1 valid⟩
    · rintro ⟨same, known, valid⟩
      obtain rfl : read = l := Option.some.inj same
      rw [if_neg (UInt32.not_lt.2 known), findSome?_refusal?_eq_none.2 valid]

/-- **A library that may be stored is read back from its document.** -/
theorem Storable.reload {l : Library} (h : l.Storable) : (ofDocument l.document).result = .ok l := by
  rw [result_ofDocument_eq_ok, document, Document.readLibrary?_libraryText, if_pos h.isFinite_factor]
  exact ⟨rfl, h⟩

/-- **Reading back the document of a library** fails for a factor that is not finite, then for an unknown
version, then for the first invalid unit, and otherwise gives the library. So every library that was
accepted from some text is accepted from its own document. -/
theorem result_ofDocument_document (l : Library) :
    ((ofDocument l.document).result =
      if ∃ u ∈ l.units, u.factor.isFinite = false then .error .json
      else if libraryVersion < l.version then .error (.unsupportedVersion l.version libraryVersion)
      else
        match l.units.findSome? UnitDef.refusal? with
        | some e => .error e
        | none => .ok l) ∧
      ∀ text, (ofDocument text).result = .ok l → (ofDocument l.document).result = .ok l := by
  refine ⟨?_, fun text accepted => (result_ofDocument_eq_ok.1 accepted).2.reload⟩
  rw [result_ofDocument, document, Document.readLibrary?_libraryText]
  by_cases infinite : ∃ u ∈ l.units, u.factor.isFinite = false
  · obtain ⟨u, hu, factor⟩ := infinite
    have some_infinite : ¬ l.units.all (·.factor.isFinite) = true := fun all => by
      rw [List.all_eq_true.1 all u hu] at factor
      cases factor
    rw [if_neg some_infinite, if_pos ⟨u, hu, factor⟩]
  · have finite : l.units.all (·.factor.isFinite) = true := by
      rw [List.all_eq_true]
      exact fun u hu => Bool.eq_true_of_not_eq_false fun factor => infinite ⟨u, hu, factor⟩
    rw [if_pos finite, if_neg infinite]

/-- One category with one unit, under the same identifier. -/
def halves : Library :=
  { categories := [{ id := .nil, name := "Halves", units := [.user .nil "half" "h" 0.5] }] }

/-- The same library, each record of it as an array of its first fields. -/
def halvesText : String :=
  "[1,[[\"00000000000000000000000000000000\",\"Halves\",false," ++
    "[[\"00000000000000000000000000000000\",\"half\",\"h\",false,false,0.5]]]]]"

theorem result_ofDocument_document_halves :
    (ofDocument halvesText).result = .ok halves ∧ (ofDocument halves.document).result = .ok halves := by
  have read : Document.readLibrary? halvesText = some halves := by decide +kernel
  have valid : ∀ u ∈ halves.units, u.validate = .ok () := by decide +kernel
  have accepted := result_ofDocument_eq_ok.2 ⟨read, by decide, valid⟩
  exact ⟨accepted, (result_ofDocument_document halves).2 halvesText accepted⟩

end Library

end UnitCalc
