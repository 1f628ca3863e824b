import UnitCalc.Proofs.Formula.Evaluation
import UnitCalc.Unit.Definition

/-!
# `Proofs.Unit.Conversion` — what conversion can fail for

A unit is validated when it is kept and converted when it is used, by different code and perhaps under
different settings. The two agree (`convert_spec`): conversion between valid units fails only for their
dimensions, for the symbol of a temperature, or for the value that is converted.

The formula of a valid unit was parsed within the default limit, so it parses within every limit that is
not lower, to the same tree (`parseUpTo_mono`). Its only variable is `x`, which conversion binds.
-/

namespace UnitCalc

open Formula

/-! ## Formulas of units -/

/-- The formula parses within the default limit and uses `x` only. -/
def UsesX (source : String) : Prop :=
  ∃ tree, parse source = .ok tree ∧ ∀ v ∈ tree.variables, v = .x

/-- The errors of a formula that uses `x` only, where `x` has a value. -/
def ValueError (e : FormulaError) : Prop :=
  e = .eval .divisionByZero ∨ ∃ fault, e = .eval (.domain fault)

theorem validateFormula_eq_ok {source : String} :
    UnitDef.validateFormula source = .ok () ↔ UsesX source := by
  rw [UnitDef.validateFormula, UsesX]
  cases parse source with
  | error e => simp
  | ok tree =>
    have none_other : (tree.variables.find? fun v => v ≠ .x) = none ↔ ∀ v ∈ tree.variables, v = .x := by
      simp [List.find?_eq_none]
    have here : (∃ t, (.ok tree : Except ParseError Expr) = .ok t ∧ ∀ v ∈ t.variables, v = .x)
        ↔ ∀ v ∈ tree.variables, v = .x := by
      simp
    rw [here, ← none_other]
    dsimp only
    cases tree.variables.find? fun v => v ≠ .x <;> simp

/-- The formula of a valid unit can be evaluated at every value, unless the value excuses it. -/
theorem evaluate_ofX {source : String} (h : UsesX source) {settings : Settings}
    (depth : defaultMaxDepth ≤ settings.maxDepth) (x : Float) :
    (∃ y, evaluate settings (.ofX x) source = .ok y) ∨
      ∃ e, evaluate settings (.ofX x) source = .error e ∧ ValueError e := by
  obtain ⟨tree, parsed, only⟩ := h
  have compiled : compile settings source = .ok ⟨source, tree⟩ :=
    compile_eq_ok.2 ⟨rfl, parseUpTo_mono depth parsed⟩
  have run : evaluate settings (.ofX x) source
      = Compiled.eval settings (.ofX x) ⟨source, tree⟩ := by
    rw [evaluate, compiled]
  rw [run]
  rcases Compiled.eval_spec compiled (.ofX x) with value | ⟨err, failed, excuse⟩
  · exact .inl value
  · refine .inr ⟨_, failed, ?_⟩
    cases excuse with
    | divisionByZero _ => exact .inl rfl
    | domain fault => exact .inr ⟨fault, rfl⟩
    | @unbound v _ free occurs =>
      obtain rfl : v = .x := only v (Expr.mem_variables.2 occurs)
      cases free

/-! ## Valid units -/

/-- The units that pass validation. -/
theorem UnitDef.validate_eq_ok {u : UnitDef} :
    u.validate = .ok () ↔ Text.isBlankText u.name = false ∧ Text.isBlankText u.symbol = false
      ∧ Scalar.isFactor u.factor = true ∧ ∀ source, u.formula = some source → UsesX source := by
  rw [validate]
  cases Text.isBlankText u.name <;> cases Text.isBlankText u.symbol <;>
    cases Scalar.isFactor u.factor <;> cases u.formula <;> simp [validateFormula_eq_ok]

theorem UnitDef.checkedFactor_measure {u : UnitDef} (h : u.validate = .ok ()) :
    u.measure.checkedFactor = .ok u.factor := by
  rw [Measure.checkedFactor]
  exact if_pos (validate_eq_ok.1 h).2.2.1

/-- The outcomes of a conversion that the definitions of the units do not rule out. -/
inductive Outcome (source target : UnitDef) : Except (ConversionError Float) Float → Prop
  | value (y : Float) : Outcome source target (.ok y)
  | dimensionMismatch (differ : source.dimension.same target.dimension = false) :
      Outcome source target (.error (.dimensionMismatch source.symbol target.symbol))
  | unknownScale {symbol : String}
      (temperatures : source.dimension.isTemperature = true ∧ target.dimension.isTemperature = true)
      (which : symbol = source.symbol ∨ symbol = target.symbol)
      (unknown : Scale.ofSymbol? symbol = none) : Outcome source target (.error (.unknownScale symbol))
  | divisionByZero {formula : String}
      (which : source.formula = some formula ∨ target.formula = some formula) :
      Outcome source target (.error (.invalidFormula formula (.eval .divisionByZero)))
  | domain {formula : String} (fault : DomainFault)
      (which : source.formula = some formula ∨ target.formula = some formula) :
      Outcome source target (.error (.invalidFormula formula (.eval (.domain fault))))

section Outcome

variable {source target : UnitDef} {settings : Settings}

/-- Two temperatures are converted unless one of the symbols names no scale. -/
theorem outcome_convertTemperature (value : Float)
    (temperatures : source.dimension.isTemperature = true ∧ target.dimension.isTemperature = true) :
    Outcome source target (convertTemperature value source.symbol target.symbol) := by
  rw [convertTemperature, scaleOf, scaleOf]
  cases first : Scale.ofSymbol? source.symbol with
  | none => exact .unknownScale temperatures (.inl rfl) first
  | some s =>
    cases second : Scale.ofSymbol? target.symbol with
    | none => exact .unknownScale temperatures (.inr rfl) second
    | some t => exact .value _

/-- The formula of either unit is applied unless the value excuses it. -/
theorem outcome_applyFormula {formula : String} (uses : UsesX formula)
    (depth : defaultMaxDepth ≤ settings.maxDepth) (x : Float)
    (which : source.formula = some formula ∨ target.formula = some formula) :
    Outcome source target
      (Measure.applyFormula (fun formula x => evaluate settings (.ofX x) formula) formula x) := by
  rw [Measure.applyFormula]
  rcases evaluate_ofX uses depth x with ⟨y, run⟩ | ⟨e, run, rfl | ⟨fault, rfl⟩⟩
  · rw [run]
    exact .value y
  · rw [run]
    exact .divisionByZero which
  · rw [run]
    exact .domain fault which

/-- **Conversion between valid units fails only for the dimensions, the symbol of a temperature, or the
    value.** It never finds a factor that validation let through, nor a formula that does not parse, has
    another variable than `x`, or cannot be evaluated for its depth or its calls. -/
theorem convert_spec (value : Float) (hs : source.validate = .ok ()) (ht : target.validate = .ok ())
    (depth : 64 ≤ settings.maxDepth) :
    Outcome source target (Measure.convert settings value source.measure target.measure) := by
  rw [Measure.convert, Measure.convertWith]
  split
  · next temperatures =>
    rw [Bool.and_eq_true] at temperatures
    exact outcome_convertTemperature value temperatures
  · split
    · next differ =>
      rw [Bool.not_eq_true'] at differ
      exact .dimensionMismatch differ
    · rw [UnitDef.checkedFactor_measure hs, UnitDef.checkedFactor_measure ht]
      have sourceFormula : source.measure.formula = source.formula := rfl
      have targetFormula : target.measure.formula = target.formula := rfl
      rw [sourceFormula, targetFormula]
      -- the formula of the source comes first, and the factors are used where there is none
      cases first : source.formula with
      | some formula =>
        exact outcome_applyFormula ((UnitDef.validate_eq_ok.1 hs).2.2.2 formula first) depth value (.inl first)
      | none =>
        cases second : target.formula with
        | some formula =>
          exact outcome_applyFormula ((UnitDef.validate_eq_ok.1 ht).2.2.2 formula second) depth _ (.inr second)
        | none => exact .value _

/-- A unit whose formula is the reciprocal, converted to from a unit with a factor. -/
theorem convert_spec_reciprocal :
    Outcome (.user .nil "half" "h" 0.5) ((UnitDef.user .nil "inverse" "i" 1).withFormula "1/x")
      (Measure.convert {} 0 (UnitDef.user .nil "half" "h" 0.5).measure
        ((UnitDef.user .nil "inverse" "i" 1).withFormula "1/x").measure) := by
  have parsed : parse "1/x" = .ok (.binary .div (.num 1) (.var .x)) :=
    parseUpTo_of_accepted (accepted_reciprocal.mono (by decide))
  have uses : UsesX "1/x" := by
    refine ⟨_, parsed, ?_⟩
    intro v hv
    have node := Expr.mem_variables.1 hv
    simpa [Expr.nodes] using node
  refine convert_spec 0 (UnitDef.validate_eq_ok.2 ⟨by decide, by decide, by decide, ?_⟩)
    (UnitDef.validate_eq_ok.2 ⟨by decide, by decide, by decide, ?_⟩) (by decide)
  · intro source formula
    cases formula
  · intro source formula
    obtain rfl := Option.some.inj formula
    exact uses

end Outcome

end UnitCalc
