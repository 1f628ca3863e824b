import UnitCalc.Proofs.Unit.Dimension

/-!
# `Proofs.Unit.Convertibility` — which units are converted

Between units without a formula, the units alone decide whether a conversion succeeds, and the value has no say
(`exists_convertWith_iff`). Each unit has to be usable by itself, and their dimensions commensurable. A
temperature is usable for its symbol, whatever its factor, and any other unit for its factor, whatever its
symbol. As commensurable dimensions are both temperatures or both not, no chain of conversions leads from one
kind of unit to the other, and being converted is symmetric and transitive (`convert_irrespective_of_value`).
-/

namespace UnitCalc

open Formula

namespace Measure

variable {α : Type} [Scalar α] {a b c : Measure α} {value : α} {run : String → α → Except FormulaError α}

/-! ## Usable units -/

/-- Values of the unit can be counted: on the scale of its symbol if it is a temperature, and else by its
    factor. -/
def Usable (m : Measure α) : Prop :=
  if m.dimension.isTemperature then (Scale.ofSymbol? m.symbol).isSome = true
  else Scalar.isFactor m.factor = true

instance (m : Measure α) : Decidable m.Usable :=
  inferInstanceAs (Decidable (if m.dimension.isTemperature then (Scale.ofSymbol? m.symbol).isSome = true
    else Scalar.isFactor m.factor = true))

theorem usable_of_temperature (h : a.dimension.isTemperature = true) :
    a.Usable ↔ (Scale.ofSymbol? a.symbol).isSome = true := by
  rw [Usable, if_pos h]

theorem usable_of_other (h : a.dimension.isTemperature = false) :
    a.Usable ↔ Scalar.isFactor a.factor = true := by
  rw [Usable, h]
  exact Iff.rfl

/-! ## Linked units -/

/-- Values are converted from one unit to the other without a formula. -/
def Linked (a b : Measure α) : Prop :=
  a.Usable ∧ b.Usable ∧ a.dimension.Commensurable b.dimension

instance (a b : Measure α) : Decidable (Linked a b) :=
  inferInstanceAs (Decidable (_ ∧ _ ∧ _))

theorem Linked.symm (h : Linked a b) : Linked b a :=
  ⟨h.2.1, h.1, h.2.2.symm⟩

theorem Linked.trans (hab : Linked a b) (hbc : Linked b c) : Linked a c :=
  ⟨hab.1, hbc.2.1, hab.2.2.trans hbc.2.2⟩

/-- Two temperatures are converted if both symbols name a scale. -/
theorem exists_convertTemperature_iff {source target : String} :
    (∃ x, convertTemperature value source target = .ok x)
      ↔ (Scale.ofSymbol? source).isSome = true ∧ (Scale.ofSymbol? target).isSome = true := by
  rw [convertTemperature, scaleOf, scaleOf]
  cases Scale.ofSymbol? source with
  | none => simp [bind, Except.bind]
  | some s =>
    cases Scale.ofSymbol? target with
    | none => simp [bind, Except.bind]
    | some t => simp [bind, Except.bind, pure, Except.pure]

/-- Where neither unit is a temperature, both factors have to be factors. -/
theorem exists_convertWith_of_same (ha : a.formula = none) (hb : b.formula = none)
    (same : a.dimension.same b.dimension = true)
    (not_both : ¬ (a.dimension.isTemperature && b.dimension.isTemperature) = true) :
    (∃ x, convertWith run value a b = .ok x)
      ↔ Scalar.isFactor a.factor = true ∧ Scalar.isFactor b.factor = true := by
  rw [convertWith, if_neg not_both, same, ha, hb, checkedFactor, checkedFactor]
  cases Scalar.isFactor a.factor with
  | false => simp [bind, Except.bind]
  | true =>
    cases Scalar.isFactor b.factor with
    | false => simp [bind, Except.bind]
    | true => simp [bind, Except.bind, pure, Except.pure]

/-- **Without formulas, exactly the values of linked units are converted.** -/
theorem exists_convertWith_iff (ha : a.formula = none) (hb : b.formula = none) :
    (∃ x, convertWith run value a b = .ok x) ↔ a.Linked b := by
  by_cases joint : a.dimension.Commensurable b.dimension
  · have linked : a.Linked b ↔ a.Usable ∧ b.Usable := and_congr_right fun _ => and_iff_left joint
    rw [linked]
    by_cases both : (a.dimension.isTemperature && b.dimension.isTemperature) = true
    · obtain ⟨ta, tb⟩ := (Bool.and_eq_true _ _).mp both
      rw [convertWith, if_pos both, exists_convertTemperature_iff, usable_of_temperature ta,
        usable_of_temperature tb]
    · have same : a.dimension.same b.dimension = true :=
        joint.resolve_left fun temperatures => both ((Bool.and_eq_true _ _).mpr temperatures)
      obtain ⟨other, other'⟩ := Dimension.not_isTemperature_of_same same both
      rw [exists_convertWith_of_same ha hb same both, usable_of_other other, usable_of_other other']
  · rw [convertWith_of_not_commensurable joint]
    simp [Linked, joint]

/-! ## Doubles -/

/-- **Whether a conversion succeeds is a matter of the two units, and not of the number.** Without formulas, a
unit is converted to another at every value or at none, and then the other one to it as well. Where it is
converted on to a third unit, it is converted to that one directly. -/
theorem convert_irrespective_of_value (settings : Settings) {a b c : Measure Float} (ha : a.formula = none)
    (hb : b.formula = none) (hc : c.formula = none) (v w : Float) :
    ((∃ x, convert settings v a b = .ok x) ↔ ∃ x, convert settings w a b = .ok x)
      ∧ ((∃ x, convert settings w a b = .ok x) ↔ ∃ x, convert settings w b a = .ok x)
      ∧ ((∃ x, convert settings v a b = .ok x) → (∃ x, convert settings w b c = .ok x) →
          ∃ x, convert settings v a c = .ok x) := by
  have linked {a b : Measure Float} (ha : a.formula = none) (hb : b.formula = none) (v : Float) :
      (∃ x, convert settings v a b = .ok x) ↔ a.Linked b := exists_convertWith_iff ha hb
  rw [linked ha hb v, linked ha hb w, linked hb ha w, linked hb hc w, linked ha hc v]
  exact ⟨.rfl, ⟨.symm, .symm⟩, .trans⟩

/-- A temperature unit with a factor that is none, and perhaps with further dimensions. -/
def unfactored (symbol : String) (further : List DimensionId) : Measure Float :=
  ⟨symbol, 0, ⟨DimensionId.temperature :: further, []⟩, none⟩

/-- Temperatures are converted whatever their factors and further dimensions. -/
theorem convert_irrespective_of_value_temperatures :
    (∃ x, convert {} 0 (unfactored "°C" []) (unfactored "K" [DimensionId.time]) = .ok x)
      ∧ (∃ x, convert {} 1 (unfactored "K" [DimensionId.time]) (unfactored "°F" []) = .ok x)
      ∧ ∃ x, convert {} 0 (unfactored "°C" []) (unfactored "°F" []) = .ok x := by
  have first : ∃ x, convert {} 0 (unfactored "°C" []) (unfactored "K" [DimensionId.time]) = .ok x :=
    (exists_convertWith_iff rfl rfl).2 (by decide)
  have second : ∃ x, convert {} 1 (unfactored "K" [DimensionId.time]) (unfactored "°F" []) = .ok x :=
    (exists_convertWith_iff rfl rfl).2 (by decide)
  exact ⟨first, second, (convert_irrespective_of_value {} rfl rfl rfl 0 1).2.2 first second⟩

end Measure

end UnitCalc
