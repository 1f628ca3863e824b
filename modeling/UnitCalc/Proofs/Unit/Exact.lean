import Mathlib.Tactic.NormNum
import UnitCalc.Proofs.Unit.Convertibility

/-!
# `Proofs.Unit.Exact` — conversion without rounding

The rules of conversion are stated for any numbers. Over the rational numbers, where nothing is rounded,
a conversion by factors or by temperature scales does not depend on the way it takes
(`convertWith_path`).

Each unit counts from a base: a temperature scale from degrees Celsius, any other unit from base units. A
conversion leads to the base (`Measure.toBase`) and from there to the target (`Measure.ofBase`). These are
inverse to each other, so that what lies between two conversions cancels.
-/

namespace UnitCalc

open Formula

section Exact

/-- Exact numbers: a factor is positive. -/
local instance : Scalar ℚ where
  isFactor x := 0 < x

/-! ## Scales -/

namespace Scale

theorem nine_ne_zero : (9.0 : ℚ) ≠ 0 := by
  norm_num

theorem five_ne_zero : (5.0 : ℚ) ≠ 0 := by
  norm_num

theorem toCelsius_ofCelsius (scale : Scale) (v : ℚ) : scale.toCelsius (scale.ofCelsius v) = v := by
  cases scale with
  | celsius => rfl
  | fahrenheit =>
    rw [ofCelsius, toCelsius, add_sub_cancel_right, div_mul_cancel₀ _ five_ne_zero,
      mul_div_cancel_right₀ _ nine_ne_zero]
  | kelvin => exact add_sub_cancel_right v _

theorem ofCelsius_toCelsius (scale : Scale) (v : ℚ) : scale.ofCelsius (scale.toCelsius v) = v := by
  cases scale with
  | celsius => rfl
  | fahrenheit =>
    rw [toCelsius, ofCelsius, div_mul_cancel₀ _ nine_ne_zero, mul_div_cancel_right₀ _ five_ne_zero,
      sub_add_cancel]
  | kelvin => exact sub_add_cancel v _

/-- Without rounding, a scale that is converted to itself need not be told apart. -/
theorem convert_eq (source target : Scale) (v : ℚ) :
    source.convert target v = target.ofCelsius (source.toCelsius v) := by
  rw [convert]
  by_cases same : source = target
  · rw [if_pos same, ← same, ofCelsius_toCelsius]
  · rw [if_neg same]

end Scale

/-! ## Units -/

namespace Measure

variable {a b c : Measure ℚ}

/-- The temperature scale that a unit stands for, if it does for any. -/
def scale? (m : Measure ℚ) : Option Scale :=
  if m.dimension.isTemperature then Scale.ofSymbol? m.symbol else none

/-- A value of the unit, counted from the base. -/
def toBase (m : Measure ℚ) (v : ℚ) : ℚ :=
  match m.scale? with
  | some scale => scale.toCelsius v
  | none => v * m.factor

/-- A value counted from the base, as a value of the unit. -/
def ofBase (m : Measure ℚ) (v : ℚ) : ℚ :=
  match m.scale? with
  | some scale => scale.ofCelsius v
  | none => v / m.factor

/-- A unit that values can be counted in: a temperature whose symbol names a scale, or any other unit with a
    positive factor. -/
def Counts (m : Measure ℚ) : Prop :=
  if m.dimension.isTemperature then (Scale.ofSymbol? m.symbol).isSome = true else 0 < m.factor

/-- Units between which values are converted without a formula: two temperatures whose symbols are known, or
    units of the same dimension with positive factors. -/
def Convertible (a b : Measure ℚ) : Prop :=
  a.Counts ∧ b.Counts ∧ (a.dimension.isTemperature ∧ b.dimension.isTemperature ∨ a.dimension.same b.dimension)

theorem scale?_of_other (other : a.dimension.isTemperature = false) : a.scale? = none := by
  rw [scale?, other]
  rfl

theorem exists_scale (counts : a.Counts) (temperature : a.dimension.isTemperature = true) :
    ∃ s, a.scale? = some s ∧ Scale.ofSymbol? a.symbol = some s := by
  rw [Counts, if_pos temperature] at counts
  obtain ⟨s, found⟩ := Option.isSome_iff_exists.1 counts
  exact ⟨s, by rw [scale?, if_pos temperature, found], found⟩

theorem factor_pos (counts : a.Counts) (other : a.dimension.isTemperature = false) : 0 < a.factor := by
  rw [Counts, if_neg (by simp [other])] at counts
  exact counts

theorem counts_of_scale {s : Scale} (found : Scale.ofSymbol? a.symbol = some s)
    (temperature : a.dimension.isTemperature = true) : a.Counts := by
  rw [Counts, if_pos temperature, found]
  rfl

theorem ofBase_toBase (counts : a.Counts) (v : ℚ) : a.ofBase (a.toBase v) = v := by
  rw [ofBase, toBase]
  cases kind : a.dimension.isTemperature with
  | true =>
    obtain ⟨s, scale, -⟩ := exists_scale counts kind
    rw [scale]
    exact s.ofCelsius_toCelsius v
  | false =>
    rw [scale?_of_other kind]
    exact mul_div_cancel_right₀ v (factor_pos counts kind).ne'

theorem toBase_ofBase (counts : a.Counts) (v : ℚ) : a.toBase (a.ofBase v) = v := by
  rw [ofBase, toBase]
  cases kind : a.dimension.isTemperature with
  | true =>
    obtain ⟨s, scale, -⟩ := exists_scale counts kind
    rw [scale]
    exact s.toCelsius_ofCelsius v
  | false =>
    rw [scale?_of_other kind]
    exact div_mul_cancel₀ v (factor_pos counts kind).ne'

theorem Convertible.refl (h : a.Counts) : Convertible a a :=
  ⟨h, h, Dimension.Commensurable.refl _⟩

theorem Convertible.symm (h : Convertible a b) : Convertible b a :=
  ⟨h.2.1, h.1, Dimension.Commensurable.symm h.2.2⟩

theorem Convertible.trans (hab : Convertible a b) (hbc : Convertible b c) : Convertible a c :=
  ⟨hab.1, hbc.2.1, Dimension.Commensurable.trans hab.2.2 hbc.2.2⟩

theorem counts_iff : a.Counts ↔ a.Usable := by
  cases kind : a.dimension.isTemperature with
  | true => rw [Counts, if_pos kind, usable_of_temperature kind]
  | false => simp [Counts, kind, usable_of_other kind, Scalar.isFactor]

section Conversion

variable (run : String → ℚ → Except FormulaError ℚ)

/-- **A conversion leads to the base and from there to the target.** -/
theorem convertWith_eq (h : Convertible a b) (ha : a.formula = none) (hb : b.formula = none) (v : ℚ) :
    convertWith run v a b = .ok (b.ofBase (a.toBase v)) := by
  obtain ⟨counts, counts', joint⟩ := h
  rw [convertWith]
  by_cases both : (a.dimension.isTemperature && b.dimension.isTemperature) = true
  · rw [if_pos both]
    rw [Bool.and_eq_true] at both
    obtain ⟨s, scale, found⟩ := exists_scale counts both.1
    obtain ⟨t, scale', found'⟩ := exists_scale counts' both.2
    rw [convertTemperature, scaleOf, scaleOf, found, found', toBase, ofBase, scale, scale']
    exact congrArg Except.ok (s.convert_eq t v)
  · have same : a.dimension.same b.dimension = true :=
      joint.resolve_left fun temperatures => both (by rw [temperatures.1, temperatures.2]; rfl)
    obtain ⟨other, other'⟩ := Dimension.not_isTemperature_of_same same both
    have source : a.checkedFactor = .ok a.factor := if_pos (decide_eq_true (factor_pos counts other))
    have target : b.checkedFactor = .ok b.factor := if_pos (decide_eq_true (factor_pos counts' other'))
    rw [if_neg both, same, ha, source, hb, target, toBase, ofBase, scale?_of_other other,
      scale?_of_other other']
    rfl

/-- Units are convertible exactly if their values are converted. -/
theorem convertible_iff (ha : a.formula = none) (hb : b.formula = none) (v : ℚ) :
    Convertible a b ↔ ∃ w, convertWith run v a b = .ok w := by
  rw [exists_convertWith_iff ha hb, Convertible, counts_iff, counts_iff]
  exact Iff.rfl

/-- **Exact conversion is path-independent.** A unit is converted to itself as it is, there and back again
    returns the value, and a unit between two others makes no difference. -/
theorem convertWith_path (v : ℚ) (ha : a.formula = none) (hb : b.formula = none) (hc : c.formula = none)
    (hab : Convertible a b) (hbc : Convertible b c) :
    convertWith run v a a = .ok v
      ∧ (∃ w, convertWith run v a b = .ok w ∧ convertWith run w b a = .ok v)
      ∧ ∃ w x, convertWith run v a b = .ok w ∧ convertWith run w b c = .ok x
        ∧ convertWith run v a c = .ok x := by
  have there := convertWith_eq run hab ha hb v
  refine ⟨?_, ⟨_, there, ?_⟩, _, _, there, convertWith_eq run hbc hb hc _, ?_⟩
  · rw [convertWith_eq run (.refl hab.1) ha ha, ofBase_toBase hab.1]
  · rw [convertWith_eq run hab.symm hb ha, toBase_ofBase hab.2.1, ofBase_toBase hab.1]
  · rw [convertWith_eq run (hab.trans hbc) ha hc, toBase_ofBase hab.2.1]

/-- A temperature unit with a symbol. -/
def thermometer (symbol : String) : Measure ℚ :=
  ⟨symbol, 1, ⟨[DimensionId.temperature], []⟩, none⟩

/-- From degrees Fahrenheit through degrees Celsius to kelvins. -/
theorem convertWith_path_temperatures :
    Convertible (thermometer "°F") (thermometer "°C") ∧ Convertible (thermometer "°C") (thermometer "K")
      ∧ convertWith (fun _ x => .ok x) 212 (thermometer "°F") (thermometer "°F") = .ok 212
      ∧ (∃ w, convertWith (fun _ x => .ok x) 212 (thermometer "°F") (thermometer "°C") = .ok w
        ∧ convertWith (fun _ x => .ok x) w (thermometer "°C") (thermometer "°F") = .ok 212)
      ∧ ∃ w x, convertWith (fun _ x => .ok x) 212 (thermometer "°F") (thermometer "°C") = .ok w
        ∧ convertWith (fun _ x => .ok x) w (thermometer "°C") (thermometer "K") = .ok x
        ∧ convertWith (fun _ x => .ok x) 212 (thermometer "°F") (thermometer "K") = .ok x := by
  have fahrenheit : (thermometer "°F").Counts := counts_of_scale (s := .fahrenheit) (by decide) (by decide)
  have celsius : (thermometer "°C").Counts := counts_of_scale (s := .celsius) (by decide) (by decide)
  have kelvin : (thermometer "K").Counts := counts_of_scale (s := .kelvin) (by decide) (by decide)
  have first : Convertible (thermometer "°F") (thermometer "°C") := ⟨fahrenheit, celsius, .inl (by decide)⟩
  have second : Convertible (thermometer "°C") (thermometer "K") := ⟨celsius, kelvin, .inl (by decide)⟩
  exact ⟨first, second, convertWith_path _ 212 rfl rfl rfl first second⟩

end Conversion

end Measure

end Exact

end UnitCalc
