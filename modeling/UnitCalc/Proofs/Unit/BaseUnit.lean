import UnitCalc.Proofs.Double.Operations
import UnitCalc.Proofs.Unit.Dimension

/-!
# `Proofs.Unit.BaseUnit` — a stop at the base unit changes nothing

A value that is converted to a base unit and from there to its target comes out as if it had been converted at
once, to the last bit and with the same error (`convert_through_base`).

By factors, a conversion has two halves that meet at the base value: the source factor is multiplied, and what
the target does comes after (`convertWith_eq_bind`). A base unit has the factor one, so its own halves leave the
value as it is. Temperatures meet at degrees Celsius, and only between different scales: on one scale nothing
is computed, while the way through Celsius would round.
-/

namespace UnitCalc

open Formula

/-! ## Temperatures -/

namespace Scale

/-- A scale is found by its symbol. -/
theorem ofSymbol?_symbol (s : Scale) : ofSymbol? s.symbol = some s := by
  cases s <;> decide

theorem symbol_of_ofSymbol? {symbol : String} {s : Scale} (h : ofSymbol? symbol = some s) :
    s.symbol = symbol := by
  simpa using List.find?_some h

/-- **Between different scales, a stop at Celsius changes nothing.** -/
theorem convert_through_celsius {α : Type} [Scalar α] {s t : Scale} (differ : s ≠ t) (v : α) :
    celsius.convert t (s.convert celsius v) = s.convert t v := by
  cases s <;> cases t <;> first | rfl | exact absurd rfl differ

end Scale

/-- Two symbols of scales are converted by their scales. -/
theorem convertTemperature_of_scales {α : Type} [Scalar α] {source target : String} {s t : Scale}
    (hs : Scale.ofSymbol? source = some s) (ht : Scale.ofSymbol? target = some t) (v : α) :
    convertTemperature v source target = .ok (s.convert t v) := by
  rw [convertTemperature, scaleOf, scaleOf, hs, ht]
  rfl

namespace Measure

/-! ## Factors -/

section Halves

variable {α : Type} [Scalar α] {a b c : Measure α}

/-- What the target of a conversion does with a base value. -/
def receive (run : String → α → Except FormulaError α) (target : Measure α) (base : α) :
    Except (ConversionError α) α :=
  match target.formula with
  | some formula => applyFormula run formula base
  | none => do
    let factor ← target.checkedFactor
    return base / factor

/-- **A conversion by factors has two halves**, which meet at the base value. -/
theorem convertWith_eq_bind (run : String → α → Except FormulaError α) (v : α)
    (other : a.dimension.isTemperature = false) (same : a.dimension.same b.dimension = true)
    (plain : a.formula = none) :
    convertWith run v a b = a.checkedFactor >>= fun factor => b.receive run (v * factor) := by
  rw [convertWith, other, same, plain]
  rfl

theorem convertWith_of_temperatures (run : String → α → Except FormulaError α) (v : α)
    (ha : a.dimension.isTemperature = true) (hb : b.dimension.isTemperature = true) :
    convertWith run v a b = convertTemperature v a.symbol b.symbol := by
  rw [convertWith, ha, hb]
  rfl

end Halves

variable {a b c : Measure Float} {settings : Settings}

theorem checkedFactor_of_one (one : b.factor = 1) : b.checkedFactor = .ok 1 := by
  have factor : Scalar.isFactor (1 : Float) = true := by decide
  rw [checkedFactor, one, if_pos factor]

/-- A base unit receives a base value as it is. -/
theorem receive_of_one (run : String → Float → Except FormulaError Float) (plain : b.formula = none)
    (one : b.factor = 1) (x : Float) : b.receive run x = .ok x := by
  rw [receive, plain, checkedFactor_of_one one]
  exact congrArg Except.ok (Double.div_one_eq x)

/-- What a base unit is converted to receives the value as it is. -/
theorem convertWith_of_one (run : String → Float → Except FormulaError Float) (x : Float)
    (other : b.dimension.isTemperature = false) (same : b.dimension.same c.dimension = true)
    (plain : b.formula = none) (one : b.factor = 1) : convertWith run x b c = c.receive run x := by
  rw [convertWith_eq_bind run x other same plain, checkedFactor_of_one one]
  exact congrArg (c.receive run) (Double.mul_one_eq x)

/-- **A stop at a base unit changes nothing**, neither a value nor an error. By factors, the unit on the way is
one without a formula and with the factor one, and whatever the factors of the others, and the formula of the
target, do or fail to do, they do the same. Between temperatures on two different scales, it is degrees Celsius.
-/
theorem convert_through_base (settings : Settings) (v : Float) (a b c : Measure Float) :
    (a.dimension.isTemperature = false → a.dimension.same b.dimension = true →
        b.dimension.same c.dimension = true → a.formula = none → b.formula = none →
        (b.factor == 1) = true →
        (convert settings v a b >>= fun w => convert settings w b c) = convert settings v a c)
      ∧ (a.dimension.isTemperature = true → b.dimension.isTemperature = true →
        c.dimension.isTemperature = true → (Scale.ofSymbol? a.symbol).isSome = true →
        (Scale.ofSymbol? c.symbol).isSome = true → a.symbol ≠ c.symbol → b.symbol = Scale.celsius.symbol →
        (convert settings v a b >>= fun w => convert settings w b c) = convert settings v a c) := by
  constructor
  · intro other hab hbc ha hb equal
    have one : b.factor = 1 := Double.eq_one_of_beq equal
    have other' : b.dimension.isTemperature = false := (Dimension.isTemperature_of_same hab).symm.trans other
    rw [convert, convert, convertWith_eq_bind _ v other hab ha,
      convertWith_eq_bind _ v other (Dimension.same_trans hab hbc) ha]
    cases a.checkedFactor with
    | error e => rfl
    | ok factor =>
      show (b.receive _ (v * factor) >>= fun w => convert settings w b c) = c.receive _ (v * factor)
      rw [receive_of_one _ hb one]
      exact convertWith_of_one _ (v * factor) other' hbc hb one
  · intro ha hb hc known known' differ celsius
    obtain ⟨s, hs⟩ := Option.isSome_iff_exists.1 known
    obtain ⟨t, ht⟩ := Option.isSome_iff_exists.1 known'
    have scale : Scale.ofSymbol? b.symbol = some .celsius := by
      rw [celsius]
      exact Scale.ofSymbol?_symbol .celsius
    have differ' : s ≠ t := by
      rintro rfl
      exact differ ((Scale.symbol_of_ofSymbol? hs).symm.trans (Scale.symbol_of_ofSymbol? ht))
    rw [convert, convert, convertWith_of_temperatures _ v ha hb, convertWith_of_temperatures _ v ha hc,
      convertTemperature_of_scales hs scale, convertTemperature_of_scales hs ht]
    show convert settings (s.convert .celsius v) b c = _
    rw [convert, convertWith_of_temperatures _ _ hb hc, convertTemperature_of_scales scale ht,
      Scale.convert_through_celsius differ']

/-- A unit of a single base dimension. -/
def simple (dimension : DimensionId) (symbol : String) (factor : Float) (formula : Option String := none) :
    Measure Float :=
  ⟨symbol, factor, ⟨[dimension], []⟩, formula⟩

open DimensionId in
/-- From feet through metres to a unit with a formula, and from degrees Fahrenheit to kelvins. -/
theorem convert_through_base_feet :
    ((simple length "m" 1).factor == 1) = true
      ∧ (convert {} 3 (simple length "ft" 0.3048) (simple length "m" 1)
          >>= fun w => convert {} w (simple length "m" 1) (simple length "i" 1 "1/x"))
        = convert {} 3 (simple length "ft" 0.3048) (simple length "i" 1 "1/x")
      ∧ "°F" ≠ "K"
      ∧ (convert {} 212 (simple temperature "°F" 1) (simple temperature "°C" 1)
          >>= fun w => convert {} w (simple temperature "°C" 1) (simple temperature "K" 1))
        = convert {} 212 (simple temperature "°F" 1) (simple temperature "K" 1) := by
  have one : ((simple length "m" 1).factor == 1) = true := by decide
  have differ : "°F" ≠ "K" := by decide
  refine ⟨one, ?_, differ, ?_⟩
  · exact (convert_through_base {} 3 _ _ _).1 (by decide) (by decide) (by decide) rfl rfl one
  · exact (convert_through_base {} 212 _ _ _).2 (by decide) (by decide) (by decide) (by decide) (by decide)
      differ rfl

end Measure

end UnitCalc
