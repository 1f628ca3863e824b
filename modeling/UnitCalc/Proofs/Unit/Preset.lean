import UnitCalc.Formula.Named
import UnitCalc.Proofs.Formula.Evaluation
import UnitCalc.Proofs.Unit.BaseUnit

/-!
# `Proofs.Unit.Preset` — the offered formulas convert like their scales

A preset is a formula text between two temperature scales, and a conversion between these scales is
arithmetic. Both give the same double for every value, infinities and not-a-number included
(`Preset.evalAt_named`).

A regrouped formula would differ in the last bit of some values. So the argument goes through the tree of the text:
it has the operations of the conversion in the same order (`Preset.value_tree`), and the words of the text are
those in which the tree is written (`Preset.words_source`).
-/

namespace UnitCalc.Formula.Preset

/-- The scale that a preset converts from, and the one it converts to. -/
def scales : Preset → Scale × Scale
  | celsiusToFahrenheit => (.celsius, .fahrenheit)
  | fahrenheitToCelsius => (.fahrenheit, .celsius)
  | celsiusToKelvin => (.celsius, .kelvin)
  | kelvinToCelsius => (.kelvin, .celsius)

/-- The tree of a preset. -/
def tree : Preset → Expr
  | celsiusToFahrenheit =>
    .binary .add (.binary .div (.binary .mul (.var .x) (.num 9.0)) (.num 5.0)) (.num 32.0)
  | fahrenheitToCelsius =>
    .binary .div (.binary .mul (.binary .sub (.var .x) (.num 32.0)) (.num 5.0)) (.num 9.0)
  | celsiusToKelvin => .binary .add (.var .x) (.num 273.15)
  | kelvinToCelsius => .binary .sub (.var .x) (.num 273.15)

/-- The text of a preset and the text of its tree differ in blanks only. -/
theorem words_source (p : Preset) : words p.source = words p.tree.text := by
  cases p <;> decide +kernel

/-- The literals of a preset are finite, and not negative. -/
theorem literals_tree (p : Preset) :
    p.tree.Literals fun x => x.isFinite = true ∧ Double.isNegative x = false := by
  cases p <;> simp only [tree, Expr.literals_binary, Expr.literals_num, Expr.literals_var] <;> decide

theorem callsAccepted_tree (p : Preset) : p.tree.CallsAccepted := by
  cases p <;> simp [tree]

theorem depth_tree (p : Preset) : p.tree.normal.depth ≤ defaultMaxDepth := by
  rw [Expr.normal_eq_self fun x hx => (p.literals_tree x hx).2, Expr.depth_eq_height]
  cases p <;> decide

theorem divide_of_ne_zero {policy : DivisionByZero} {d : Float} (h : (d == 0) = false) (a : Float) :
    divide policy a d = .ok (a / d) := by
  rw [divide, h]
  rfl

/-- **The tree of a preset has the operations of its conversion**, in the same order. No policy matters: the
divisors are no zeros, and `x` has a value. -/
theorem value_tree (settings : Settings) (p : Preset) (v : Float) :
    p.tree.value settings (.ofX v) = .ok (p.scales.1.convert p.scales.2 v) := by
  have five : ((5.0 : Float) == 0) = false := by decide
  have nine : ((9.0 : Float) == 0) = false := by decide
  cases p with
  | celsiusToFahrenheit =>
    show (divide settings.divisionByZero (v * 9.0) 5.0 >>= fun q => .ok (q + 32.0)) = _
    rw [divide_of_ne_zero five]
    rfl
  | fahrenheitToCelsius =>
    show divide settings.divisionByZero ((v - 32.0) * 5.0) 9.0 = _
    rw [divide_of_ne_zero nine]
    rfl
  | celsiusToKelvin => rfl
  | kelvinToCelsius => rfl

/-- **A preset computes the conversion that its label shows**, to the last bit: as a formula it has a value at
every double, and this is what a conversion between its two scales gives. -/
theorem evalAt_named (p : Preset) (id : Uuid) (v : Float) :
    (p.named id).symbol = p.scales.1.symbol ++ " → " ++ p.scales.2.symbol
      ∧ ∃ w, (p.named id).evalAt v = .ok w
        ∧ convertTemperature v p.scales.1.symbol p.scales.2.symbol = .ok w := by
  refine ⟨by cases p <;> rfl, _, ?_,
    convertTemperature_of_scales p.scales.1.ofSymbol?_symbol p.scales.2.ofSymbol?_symbol v⟩
  exact evaluate_of_words p.words_source (fun x hx => (p.literals_tree x hx).1) p.callsAccepted_tree
    p.depth_tree (value_tree _ p v)

end UnitCalc.Formula.Preset
