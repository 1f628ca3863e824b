import UnitCalc.Proofs.Double.Numbers
import UnitCalc.Proofs.Double.Power
import UnitCalc.Proofs.Formula.Operations

/-!
# `Proofs.Formula.Rounding` — rounding to decimal places

`round` with a number of places scales by a power of ten, makes the result whole, and scales back. Behind the point
this never leaves the finite doubles: what is too large to be scaled has no such places and is given back
(`isFinite_rounded_behind`). Before the point nothing of the kind is checked. The scaled number is made whole and
multiplied, and near the end of the doubles the product may be an infinity (`isFinite_rounded_before`); in their
lower half it never is (`scaled_back_lt_overflow`).
-/

namespace UnitCalc.Formula

open Double

variable {x places : Float}

/-- The number of places is capped on both sides of the point. -/
theorem natAbs_placesOf_le (places : Float) : (placesOf places).natAbs ≤ 308 := by
  rw [placesOf]
  cases parts? places with
  | none => decide
  | some p =>
    dsimp only
    split
    · rw [Int.natAbs_neg]
      exact min_le_right _ _
    · exact min_le_right _ _

/-- **Rounding behind the point keeps a double finite.** -/
theorem isFinite_rounded_behind {n : Nat} (h : placesOf places = .ofNat n) (hx : x.isFinite = true) :
    (rounded x places).isFinite = true := by
  have few : n ≤ 308 := by simpa [h] using natAbs_placesOf_le places
  have scale := (powNat_ten_bounds few).1
  rw [rounded, h]
  dsimp only
  split
  · next scaled => exact isFinite_div (isFinite_round scaled) scale.factor scale.le
  · exact hx

/-- **Rounding before the point keeps a double finite when scaling back does.** -/
theorem isFinite_rounded_before {k : Nat} (h : placesOf places = .negSucc k) (hx : x.isFinite = true) :
    (rounded x places).isFinite = true ↔
      magnitude (Double.round (x / powNat 10 (k + 1))) * magnitude (powNat 10 (k + 1)) < overflow := by
  have few : k + 1 ≤ 308 := by simpa [h] using natAbs_placesOf_le places
  have scale := (powNat_ten_bounds few).1
  rw [rounded, h]
  exact isFinite_mul_iff (isFinite_round (isFinite_div hx scale.factor scale.le)) scale.factor

/-- Half of the largest power of ten, and half of the doubles, leave room for all that rounding adds. -/
theorem half_range_lt_overflow :
    2 ^ 1023 * growth ^ 2 + 51 / 100 * (5 / 4 * 10 ^ 308) < overflow := by
  have half : (2 : ℚ) ^ 1023 = 2 ^ 53 * (2 ^ 194) ^ 5 := by rw [← pow_mul, ← pow_add]
  rw [half, ten_pow_eq, overflow_eq_mul, growth]
  norm_num

/-- **In the lower half of the doubles scaling back stays below their end.** Making the scaled number whole adds
half of a power of ten, and the three operations round. -/
theorem scaled_back_lt_overflow {k : Nat} (few : k ≤ 308) (hx : x.isFinite = true) (low : magnitude x ≤ 2 ^ 1023) :
    magnitude (Double.round (x / powNat 10 k)) * magnitude (powNat 10 k) < overflow := by
  obtain ⟨scale, high⟩ := powNat_ten_bounds few
  have pos := magnitude_pos scale.factor
  have small : underflow ≤ 2 ^ (-53 : ℤ) := zpow_le_zpow_right₀ one_le_two (by norm_num)
  have quotient := magnitude_div_le hx scale.factor
  have whole := magnitude_round_le (x / powNat 10 k)
  generalize magnitude (Double.round (x / powNat 10 k)) = r at whole ⊢
  generalize magnitude (x / powNat 10 k) = q at quotient whole
  generalize magnitude (powNat 10 k) = s at pos high quotient ⊢
  have growth_pos : 0 ≤ growth := zero_le_one.trans one_le_growth
  have rounding : (underflow + 1 / 2) * growth + underflow ≤ 51 / 100 := by
    calc (underflow + 1 / 2) * growth + underflow
        ≤ (2 ^ (-53 : ℤ) + 1 / 2) * growth + 2 ^ (-53 : ℤ) := by gcongr
      _ ≤ 51 / 100 := by
        rw [growth]
        norm_num
  calc r * s ≤ ((magnitude x / s * growth + underflow + 1 / 2) * growth + underflow) * s := by
        refine mul_le_mul_of_nonneg_right (whole.trans ?_) pos.le
        gcongr
    _ = magnitude x * growth ^ 2 + ((underflow + 1 / 2) * growth + underflow) * s := by
        field_simp
        ring
    _ ≤ 2 ^ 1023 * growth ^ 2 + 51 / 100 * (5 / 4 * 10 ^ 308) := by gcongr
    _ < overflow := half_range_lt_overflow

/-- **Rounding a number gives a number**, also where it is not finite. -/
theorem isNaN_rounded (hx : x.isNaN = false) : (rounded x places).isNaN = false := by
  have few := natAbs_placesOf_le places
  rw [rounded]
  cases side : placesOf places with
  | negSucc k =>
    have scale := (powNat_ten_bounds (k := k + 1) (by simpa [side] using few)).1
    exact isNaN_mul (isNaN_toWhole _ (isNaN_div hx scale.factor)) scale.factor
  | ofNat n =>
    have scale := (powNat_ten_bounds (k := n) (by simpa [side] using few)).1
    dsimp only
    split
    · exact isNaN_div (isNaN_toWhole _ (isNaN_mul hx scale.factor)) scale.factor
    · exact hx

/-- **Rounding a finite number to a finite number of places has a value.** It is finite, unless the places lie
before the point and the scaled number, once it is whole, is scaled back beyond the end of the doubles. No number in
the lower half of the doubles is. -/
theorem apply_round_isFinite_iff (policy : DivisionByZero) (hx : x.isFinite = true)
    (hp : places.isFinite = true) :
    ∃ r, Func.round.apply policy [x, places] = .ok r
      ∧ (r.isFinite = true ↔ ∀ k, placesOf places = .negSucc k →
          magnitude (Double.round (x / powNat 10 (k + 1))) * magnitude (powNat 10 (k + 1)) < overflow)
      ∧ (magnitude x ≤ 2 ^ 1023 → r.isFinite = true) := by
  refine ⟨rounded x places, roundTo_of_finite hp, ?_⟩
  cases side : placesOf places with
  | ofNat n =>
    have finite := isFinite_rounded_behind side hx
    exact ⟨iff_of_true finite nofun, fun _ => finite⟩
  | negSucc k =>
    have few : k + 1 ≤ 308 := by simpa [side] using natAbs_placesOf_le places
    rw [isFinite_rounded_before side hx]
    refine ⟨⟨?_, fun bounded => bounded k rfl⟩, scaled_back_lt_overflow few hx⟩
    rintro bounded _ ⟨⟩
    exact bounded

/-- Rounded to hundreds, 1250 stays finite. -/
theorem apply_round_isFinite_hundreds :
    (1250 : Float).isFinite = true ∧ (-2 : Float).isFinite = true
      ∧ ∃ r, Func.round.apply .error [1250, -2] = .ok r ∧ r.isFinite = true := by
  have hx : (1250 : Float).isFinite = true := by decide
  have hp : (-2 : Float).isFinite = true := by decide
  obtain ⟨r, value, -, low⟩ := apply_round_isFinite_iff .error hx hp
  refine ⟨hx, hp, r, value, low ?_⟩
  have parts : parts? 1250 = some ⟨false, 1250 * 2 ^ 42, -42⟩ := by decide
  calc magnitude 1250 = 1250 := by
        rw [magnitude, parts]
        norm_num
    _ ≤ 2 ^ 11 := by norm_num
    _ ≤ 2 ^ 1023 := pow_le_pow_right₀ one_le_two (by norm_num)

/-- The largest double, rounded to millions, is an infinity. -/
theorem not_apply_round_isFinite :
    ¬ ∀ policy (x places : Float), x.isFinite = true → places.isFinite = true →
      ∃ r, Func.round.apply policy [x, places] = .ok r ∧ r.isFinite = true := by
  intro always
  obtain ⟨r, value, finite⟩ := always .error 1.7976931348623157e308 (-6) (by decide +kernel) (by decide)
  have beyond : Func.round.apply .error [1.7976931348623157e308, -6] = .ok infinity := by decide +kernel
  obtain rfl : infinity = r := Except.ok.inj (beyond.symm.trans value)
  exact absurd finite (by decide)

end UnitCalc.Formula
