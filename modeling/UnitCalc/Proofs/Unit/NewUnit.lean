import UnitCalc.Proofs.Unit.BaseUnit
import UnitCalc.Proofs.Unit.Conversion
import UnitCalc.Unit.Category

/-!
# `Proofs.Unit.NewUnit` — a new unit among its siblings

A new unit of a category takes the dimension of a built-in one and the factor one. Where all units have one
dimension, this makes it a base unit of the category: conversion to it multiplies by the factor of the other
unit, and conversion from it divides by that factor, so that it never fails.

Temperatures are the exception. There the dimension alone settles nothing, since scales are told apart by their
symbols, and a new unit has a symbol that names no scale. It is refused in both directions (`newUnit_spec`).
-/

namespace UnitCalc

open Formula

/-! ## Units of one dimension -/

namespace UnitDef

variable {u w : UnitDef} {settings : Settings}

/-- From a base unit, the factor of the other unit divides. -/
theorem convert_from_one (one : u.factor = 1) (hu : u.formula = none) (hw : w.formula = none)
    (valid : w.validate = .ok ()) (same : u.dimension.same w.dimension = true)
    (other : u.dimension.isTemperature = false) (v : Float) :
    Measure.convert settings v u.measure w.measure = .ok (v / w.factor) := by
  have formula : w.measure.formula = none := hw
  rw [Measure.convert, Measure.convertWith_of_one _ v other same hu one, Measure.receive, formula,
    checkedFactor_measure valid]
  rfl

/-- To a base unit, the factor of the other unit multiplies. -/
theorem convert_to_one (one : w.factor = 1) (hu : u.formula = none) (hw : w.formula = none)
    (valid : u.validate = .ok ()) (same : u.dimension.same w.dimension = true)
    (other : u.dimension.isTemperature = false) (v : Float) :
    Measure.convert settings v u.measure w.measure = .ok (v * u.factor) := by
  rw [Measure.convert, Measure.convertWith_eq_bind _ v other same hu, checkedFactor_measure valid]
  exact Measure.receive_of_one _ hw one (v * u.factor)

end UnitDef

/-! ## Temperatures -/

theorem scaleOf_unknown {α : Type} [Scalar α] {symbol : String} (unknown : Scale.ofSymbol? symbol = none) :
    scaleOf symbol = (.error (.unknownScale symbol) : Except (ConversionError α) Scale) := by
  rw [scaleOf, unknown]

/-- The first symbol that names no scale is reported. -/
theorem convertTemperature_unknown_source {α : Type} [Scalar α] {source : String}
    (unknown : Scale.ofSymbol? source = none) (v : α) (target : String) :
    convertTemperature v source target = .error (.unknownScale source) := by
  rw [convertTemperature, scaleOf_unknown unknown]
  rfl

theorem convertTemperature_unknown_target {α : Type} [Scalar α] {source target : String} {s : Scale}
    (known : Scale.ofSymbol? source = some s) (unknown : Scale.ofSymbol? target = none) (v : α) :
    convertTemperature v source target = .error (.unknownScale target) := by
  rw [convertTemperature, scaleOf, known, scaleOf_unknown unknown]
  rfl

/-! ## New units -/

namespace Category

variable {c : Category} {id : Uuid}

/-- A new unit has the dimension of some unit of the category, if there is a built-in one. -/
theorem exists_dimension_newUnit (builtIn : ∃ u ∈ c.units, u.isBuiltIn = true) (id : Uuid) :
    ∃ w ∈ c.units, (c.newUnit id).dimension = w.dimension := by
  obtain ⟨u, hu, system⟩ := builtIn
  obtain ⟨w, first⟩ : ∃ w, c.units.find? (fun u => u.isBuiltIn) = some w :=
    Option.isSome_iff_exists.1 (List.find?_isSome.2 ⟨u, hu, system⟩)
  refine ⟨w, List.mem_of_find?_eq_some first, ?_⟩
  rw [newUnit, first]

/-- A new unit is valid, whatever the category. -/
theorem validate_newUnit (c : Category) (id : Uuid) : (c.newUnit id).validate = .ok () := by
  have name : Text.isBlankText "New Unit" = false := by decide
  have symbol : Text.isBlankText "unit" = false := by decide
  have factor : Scalar.isFactor (1 : Float) = true := by decide
  exact UnitDef.validate_eq_ok.2 ⟨name, symbol, factor, fun _ formula => nomatch formula⟩

/-- The symbol of a new unit names no scale. -/
theorem ofSymbol?_newUnit (c : Category) (id : Uuid) : Scale.ofSymbol? (c.newUnit id).symbol = none := by
  show Scale.ofSymbol? "unit" = none
  decide

/-- **A new unit is converted like its siblings, unless they are temperatures.** Where all units are valid and of
one dimension, one of them built in, a new unit is valid, and a unit without a formula has one outcome with it in
each direction at every value. It is a quotient by the factor of the other unit and a product with it, except
between temperatures, where the new unit is refused for its symbol in both directions. -/
theorem newUnit_spec (id : Uuid) (valid : ∀ u ∈ c.units, u.validate = .ok ())
    (alike : ∀ u ∈ c.units, ∀ w ∈ c.units, u.dimension.numerator.Perm w.dimension.numerator
      ∧ u.dimension.denominator.Perm w.dimension.denominator)
    (builtIn : ∃ u ∈ c.units, u.isBuiltIn = true) :
    (c.newUnit id).validate = .ok ()
      ∧ ∀ u ∈ c.units, u.formula = none → ∀ (settings : Settings) (v : Float),
        (u.dimension.isTemperature = false →
          Measure.convert settings v (c.newUnit id).measure u.measure = .ok (v / u.factor)
            ∧ Measure.convert settings v u.measure (c.newUnit id).measure = .ok (v * u.factor))
        ∧ (u.dimension.isTemperature = true →
          Measure.convert settings v (c.newUnit id).measure u.measure = .error (.unknownScale "unit")
            ∧ Measure.convert settings v u.measure (c.newUnit id).measure
              = .error (.unknownScale (if (Scale.ofSymbol? u.symbol).isSome then "unit" else u.symbol))) := by
  constructor
  · exact validate_newUnit c id
  intro u hu plain settings v
  have same : (c.newUnit id).dimension.same u.dimension = true := by
    obtain ⟨w, hw, dimension⟩ := exists_dimension_newUnit builtIn id
    rw [dimension]
    exact Dimension.same_iff.2 (alike w hw u hu)
  have kind := Dimension.isTemperature_of_same same
  constructor
  · intro other
    exact ⟨UnitDef.convert_from_one rfl rfl plain (valid u hu) same (kind.trans other) v,
      UnitDef.convert_to_one rfl plain rfl (valid u hu) (Dimension.same_symm same) other v⟩
  · intro temperature
    have unknown := ofSymbol?_newUnit c id
    have temperature' := kind.trans temperature
    rw [Measure.convert, Measure.convert, Measure.convertWith_of_temperatures _ v temperature' temperature,
      Measure.convertWith_of_temperatures _ v temperature temperature']
    refine ⟨convertTemperature_unknown_source unknown v _, ?_⟩
    cases known : Scale.ofSymbol? u.symbol with
    | none => exact convertTemperature_unknown_source known v _
    | some s => exact convertTemperature_unknown_target known unknown v

def kilometer : UnitDef :=
  .builtIn .nil "Kilometer" "km" 1000 ⟨[.length], []⟩

/-- Two built-in lengths. -/
def distances : Category :=
  { id := .nil, name := "Distance", units := [.builtIn .nil "Meter" "m" 1 ⟨[.length], []⟩, kilometer] }

theorem newUnit_spec_kilometer :
    (distances.newUnit .nil).validate = .ok ()
      ∧ Measure.convert {} 2500 (distances.newUnit .nil).measure kilometer.measure = .ok (2500 / 1000)
      ∧ Measure.convert {} 2.5 kilometer.measure (distances.newUnit .nil).measure = .ok (2.5 * 1000) := by
  have spec := newUnit_spec (c := distances) .nil (by decide) (by decide) (by decide)
  exact ⟨spec.1, (spec.2 kilometer (by decide) rfl {} 2500).1 (by decide) |>.1,
    (spec.2 kilometer (by decide) rfl {} 2.5).1 (by decide) |>.2⟩

def celsius : UnitDef :=
  .builtIn .nil "Celsius" "°C" 1 ⟨[.temperature], []⟩

/-- The built-in temperatures, of which one is enough here. -/
def temperatures : Category :=
  { id := .nil, name := "Temperature", units := [celsius] }

/-- A new temperature is valid, and yet it is not converted to degrees Celsius. -/
theorem newUnit_not_converted_celsius :
    ((∀ u ∈ temperatures.units, u.validate = .ok ())
        ∧ (∀ u ∈ temperatures.units, ∀ w ∈ temperatures.units,
          u.dimension.numerator.Perm w.dimension.numerator
            ∧ u.dimension.denominator.Perm w.dimension.denominator)
        ∧ ∃ u ∈ temperatures.units, u.isBuiltIn = true)
      ∧ (temperatures.newUnit .nil).validate = .ok ()
      ∧ celsius ∈ temperatures.units ∧ celsius.formula = none
      ∧ ∀ y, Measure.convert {} 1 (temperatures.newUnit .nil).measure celsius.measure ≠ .ok y := by
  have refused : Measure.convert {} 1 (temperatures.newUnit .nil).measure celsius.measure
      = .error (.unknownScale "unit") := by
    rw [Measure.convert, Measure.convertWith_of_temperatures _ _ (by decide) (by decide)]
    exact convertTemperature_unknown_source (ofSymbol?_newUnit temperatures .nil) 1 _
  refine ⟨by decide, validate_newUnit temperatures .nil, by decide, rfl, ?_⟩
  intro y converted
  rw [refused] at converted
  cases converted

end Category

end UnitCalc
