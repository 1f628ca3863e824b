import Mathlib.Algebra.Order.Field.Power
import Mathlib.Data.Int.Log
import Mathlib.Data.Rat.Floor
import Mathlib.Tactic.Linarith
import Mathlib.Tactic.Positivity
import Mathlib.Tactic.FieldSimp
import Mathlib.Tactic.Ring
import UnitCalc.Decimal.Basic
import UnitCalc.Proofs.Double.Packing

/-!
# `Proofs.Decimal.Nearest` — reading a decimal rounds its value

`Decimal.toFloat` multiplies or divides by a power of ten and rounds once. Which double it gives
depends on the *value* of the decimal only, a rational number: it is `nearest` of that value
(`toFloat_eq_nearest`). Decimals of one value therefore read as the same double, however their digits
are split between coefficient and exponent, and the exact decimal of a double reads as that double.

The rounding of core works on a mantissa with two residual bits. All such mantissas that occur are
those of a fraction (`fraction`), and shifting them is dividing the fraction. What is rounded is the
nearest natural number, and the even one on a tie (`nearestEven_roundEven`), which settles where the
doubles end (`underflow`, `overflow`).
-/

namespace UnitCalc

open Float.Model Float.Model.UnpackedFloat Float.Model.Format

namespace Double

/-! ## Mantissas of fractions -/

/-- The whole part of `a / b`, with the binary place behind the point and whether more follow. -/
def fraction (a b : Nat) : ExtendedMantissa :=
  ⟨a / b, (2 * a / b) % 2 != 0, 2 * a % b != 0⟩

/-- Dropping one binary digit halves the fraction. -/
theorem shiftRightOne_fraction (a : Nat) {b : Nat} (hb : 0 < b) :
    (fraction a b).shiftRightOne = fraction a (b * 2) := by
  have whole : a / b / 2 = a / (b * 2) := Nat.div_div_eq_div_mul a b 2
  have place : 2 * a / (b * 2) = a / b := by
    rw [Nat.mul_comm b 2, Nat.mul_div_mul_left a b two_pos]
  have rest : 2 * a % (b * 2) = 2 * a % b + b * (2 * a / b % 2) := Nat.mod_mul
  simp only [fraction, ExtendedMantissa.shiftRightOne, whole, place, rest,
    ExtendedMantissa.mk.injEq, true_and]
  rcases Nat.mod_two_eq_zero_or_one (2 * a / b) with h | h
  · simp [h]
  · simp [h, Nat.ne_of_gt hb]

theorem shiftRight_fraction (a : Nat) {b : Nat} (hb : 0 < b) (n : Nat) :
    fraction a b >>> n = fraction a (b * 2 ^ n) := by
  show n.repeat ExtendedMantissa.shiftRightOne (fraction a b) = _
  induction n with
  | zero => simp [Nat.repeat]
  | succ n ih =>
    rw [Nat.repeat, ih, shiftRightOne_fraction a (by positivity), pow_succ, Nat.mul_assoc]

/-- Only the ratio of the two numbers matters. -/
theorem fraction_scale (a b : Nat) {c : Nat} (hc : 0 < c) :
    fraction (c * a) (c * b) = fraction a b := by
  have twice : 2 * (c * a) = c * (2 * a) := Nat.mul_left_comm 2 c a
  have rest : (c * (2 * a % b) != 0) = (2 * a % b != 0) := by
    rw [Bool.eq_iff_iff]
    simp [Nat.ne_of_gt hc]
  simp only [fraction, twice, Nat.mul_div_mul_left _ _ hc, Nat.mul_mod_mul_left, rest]

theorem fraction_congr {a b c d : Nat} (hb : 0 < b) (hd : 0 < d) (h : a * d = c * b) :
    fraction a b = fraction c d := by
  calc fraction a b = fraction (d * a) (d * b) := (fraction_scale a b hd).symm
    _ = fraction (b * c) (b * d) := by
      rw [Nat.mul_comm d a, h, Nat.mul_comm c b, Nat.mul_comm d b]
    _ = fraction c d := fraction_scale c d hb

/-- A quotient with its remainder is the mantissa of the fraction. -/
theorem ofMantissaAndAccuracy_fraction (a : Nat) {b : Nat} (hb : 0 < b) :
    ExtendedMantissa.ofMantissaAndAccuracy (a / b) (accuracyOfFraction (a % b) b)
      = fraction a b := by
  have split : 2 * a = 2 * (a % b) + b * (2 * (a / b)) := by
    linarith [Nat.mod_add_div a b]
  have place : 2 * a / b % 2 = 2 * (a % b) / b % 2 := by
    rw [split, Nat.add_mul_div_left _ _ hb]
    omega
  have rest : 2 * a % b = 2 * (a % b) % b := by
    rw [split, Nat.add_mul_mod_self_left]
  have small := Nat.mod_lt a hb
  simp only [fraction, place, rest, accuracyOfFraction]
  generalize a / b = q
  generalize a % b = r at small
  -- what is left is compared with half of the divisor
  by_cases none : r = 0
  · subst none
    rw [if_pos rfl]
    simp [ExtendedMantissa.ofMantissaAndAccuracy]
  · rw [if_neg none]
    rcases Nat.lt_trichotomy (2 * r) b with h | h | h
    · have below : compare (2 * r) b = .lt := Nat.compare_eq_lt.2 h
      rw [below, Nat.div_eq_of_lt h, Nat.mod_eq_of_lt h]
      simp [ExtendedMantissa.ofMantissaAndAccuracy, none]
    · have half : compare (2 * r) b = .eq := Nat.compare_eq_eq.2 h
      rw [half, h, Nat.div_self hb, Nat.mod_self]
      rfl
    · have above : compare (2 * r) b = .gt := Nat.compare_eq_gt.2 h
      have once : 2 * r / b = 1 := Nat.div_eq_of_lt_le (by omega) (by omega)
      have left : 2 * r % b ≠ 0 := by
        rw [Nat.mod_eq_sub_mod h.le, Nat.mod_eq_of_lt (by omega)]
        omega
      rw [above, once]
      simp [ExtendedMantissa.ofMantissaAndAccuracy, left]

/-! ## Rounding a rational number -/

/-- The nearest natural number of a rational one that is not negative, the even one on a tie. -/
def roundEven (y : ℚ) : Nat :=
  (fraction y.num.toNat y.den).roundedMantissa

theorem roundEven_div (a : Nat) {b : Nat} (hb : 0 < b) :
    roundEven (a / b) = (fraction a b).roundedMantissa := by
  have den : 0 < (a / b : ℚ).den := (a / b : ℚ).den_pos
  have num : ((a / b : ℚ).num.toNat : ℚ) = (a / b : ℚ).num := by
    exact_mod_cast Int.toNat_of_nonneg (Rat.num_nonneg.2 (by positivity))
  have cross : ((a / b : ℚ).num : ℚ) * b = a * (a / b : ℚ).den := by
    have ratio := Rat.num_div_den (a / b : ℚ)
    field_simp at ratio ⊢
    linarith
  rw [← num] at cross
  rw [roundEven, fraction_congr den hb (by exact_mod_cast cross)]

/-- Rounding gives one of the two natural numbers around the number. -/
theorem roundedMantissa_bounds (em : ExtendedMantissa) :
    em.mantissa ≤ em.roundedMantissa ∧ em.roundedMantissa ≤ em.mantissa + 1 := by
  obtain ⟨m, place, rest⟩ := em
  have parity := Nat.mod_two_eq_zero_or_one m
  cases place <;> cases rest <;>
    simp only [ExtendedMantissa.roundedMantissa, ExtendedMantissa.accuracy,
      Accuracy.roundToNearestEven] <;> omega

theorem roundEven_natCast (n : Nat) : roundEven n = n := by
  have whole := roundEven_div n one_pos
  rw [Nat.cast_one, div_one] at whole
  rw [whole]
  simp [fraction, ExtendedMantissa.roundedMantissa, ExtendedMantissa.accuracy,
    Accuracy.roundToNearestEven, Nat.mod_one]

/-- The natural number is nearest to the rational one, and the even one of two that are as near. -/
structure NearestEven (n : Nat) (y : ℚ) : Prop where
  le : y ≤ n + 1 / 2
  ge : n ≤ y + 1 / 2
  even : y = n + 1 / 2 ∨ n = y + 1 / 2 → n % 2 = 0

/-- Within less than one half there is no tie. -/
theorem NearestEven.of_near {n : Nat} {y : ℚ} (below : y < n + 1 / 2) (above : n < y + 1 / 2) :
    NearestEven n y where
  le := below.le
  ge := above.le
  even tie := by rcases tie with tie | tie <;> linarith

/-- A whole number and a fraction below one, rounded by comparing the fraction with one half. -/
theorem nearestEven_roundToNearestEven (q : Nat) {s b : Nat} (small : s < b) :
    NearestEven ((accuracyOfFraction s b).roundToNearestEven q) (q + s / b) := by
  have hb : (0 : ℚ) < b := by exact_mod_cast Nat.zero_lt_of_lt small
  have part : 0 ≤ (s : ℚ) / b := by positivity
  rw [accuracyOfFraction]
  split
  · next none =>
    show NearestEven q _
    rw [none, Nat.cast_zero, zero_div]
    exact .of_near (by linarith) (by linarith)
  · rcases Nat.lt_trichotomy (2 * s) b with h | h | h
    · have below : (s : ℚ) / b < 1 / 2 := by
        rw [div_lt_div_iff₀ hb two_pos]
        exact_mod_cast (by omega : s * 2 < 1 * b)
      rw [Nat.compare_eq_lt.2 h]
      show NearestEven q _
      exact .of_near (by linarith) (by linarith)
    · have half : (s : ℚ) / b = 1 / 2 := by
        rw [div_eq_div_iff hb.ne' two_ne_zero]
        exact_mod_cast (by omega : s * 2 = 1 * b)
      rw [Nat.compare_eq_eq.2 h, half]
      show NearestEven (q + q % 2) _
      rcases Nat.mod_two_eq_zero_or_one q with even | odd
      · rw [even]
        exact ⟨by simp, by simp; linarith, fun _ => even⟩
      · rw [odd]
        exact ⟨by push_cast; linarith, by push_cast; linarith, fun _ => by omega⟩
    · have above : 1 / 2 < (s : ℚ) / b := by
        rw [div_lt_div_iff₀ two_pos hb]
        exact_mod_cast (by omega : 1 * b < s * 2)
      have below : (s : ℚ) / b < 1 := (div_lt_one hb).2 (by exact_mod_cast small)
      rw [Nat.compare_eq_gt.2 h]
      show NearestEven (q + 1) _
      exact .of_near (by push_cast; linarith) (by push_cast; linarith)

theorem roundedMantissa_ofMantissaAndAccuracy (m : Nat) (accuracy : Accuracy) :
    (ExtendedMantissa.ofMantissaAndAccuracy m accuracy).roundedMantissa
      = accuracy.roundToNearestEven m := by
  cases accuracy with
  | exact => rfl
  | inexact side => cases side <;> rfl

/-- A fraction is its whole part and what is left of the numerator. -/
theorem whole_add_rest (a : Nat) {b : Nat} (hb : 0 < b) :
    ((a / b : Nat) : ℚ) + (a % b : Nat) / b = a / b := by
  have pos : (b : ℚ) ≠ 0 := by exact_mod_cast hb.ne'
  have split : ((a / b * b + a % b : Nat) : ℚ) = a := by rw [Nat.div_add_mod']
  rw [eq_div_iff pos, add_mul, div_mul_cancel₀ _ pos]
  exact_mod_cast split

/-- **What is rounded is nearest, and even on a tie.** -/
theorem nearestEven_roundEven {y : ℚ} (h : 0 ≤ y) : NearestEven (roundEven y) y := by
  have num : (y.num.toNat : ℚ) = y.num := by
    exact_mod_cast Int.toNat_of_nonneg (Rat.num_nonneg.2 h)
  have near := nearestEven_roundToNearestEven (y.num.toNat / y.den) (Nat.mod_lt y.num.toNat y.den_pos)
  rw [whole_add_rest _ y.den_pos, num, Rat.num_div_den] at near
  rwa [roundEven, ← ofMantissaAndAccuracy_fraction _ y.den_pos, roundedMantissa_ofMantissaAndAccuracy]

/-- An even number is not exceeded by what is rounded from at most one half above it. -/
theorem roundEven_le_iff {y : ℚ} (h : 0 ≤ y) {n : Nat} (even : n % 2 = 0) :
    roundEven y ≤ n ↔ y ≤ n + 1 / 2 := by
  have near := nearestEven_roundEven h
  constructor
  · intro le
    have le' : (roundEven y : ℚ) ≤ n := by exact_mod_cast le
    linarith [near.le]
  · intro le
    by_contra! more
    have more' : (n : ℚ) + 1 ≤ roundEven y := by exact_mod_cast more
    have next : (roundEven y : ℚ) = n + 1 := by linarith [near.ge]
    have next' : roundEven y = n + 1 := by exact_mod_cast next
    have parity := near.even (.inr (by linarith [near.ge]))
    omega

/-- An even number is reached by what is rounded from at most one half below it. -/
theorem roundEven_lt_iff {y : ℚ} (h : 0 ≤ y) {n : Nat} (even : n % 2 = 0) :
    roundEven y < n ↔ y < n - 1 / 2 := by
  have near := nearestEven_roundEven h
  constructor
  · intro less
    have less' : (roundEven y : ℚ) + 1 ≤ n := by exact_mod_cast less
    refine lt_of_le_of_ne (by linarith [near.le]) fun tie => ?_
    have next : (roundEven y : ℚ) + 1 = n := by linarith [near.le]
    have next' : roundEven y + 1 = n := by exact_mod_cast next
    have parity := near.even (.inl (by linarith))
    omega
  · intro less
    have less' : (roundEven y : ℚ) < n := by linarith [near.ge]
    exact_mod_cast less'

theorem roundEven_eq_zero_iff {y : ℚ} (h : 0 ≤ y) : roundEven y = 0 ↔ y ≤ 1 / 2 := by
  have small := roundEven_le_iff h (n := 0) rfl
  rwa [Nat.le_zero, Nat.cast_zero, zero_add] at small

/-- The exponent of the last binary digit that a double near `v` has. -/
def quantum (v : ℚ) : ℤ :=
  max (Int.log 2 v - 52) (-1074)

theorem quantum_eq {v : ℚ} {t : ℤ} (pos : 0 < v) (high : v < 2 ^ (53 + t))
    (low : t = -1074 ∨ 2 ^ (52 + t) ≤ v) (least : -1074 ≤ t) : quantum v = t := by
  have above : Int.log 2 v < 53 + t :=
    (Int.lt_zpow_iff_log_lt one_lt_two pos).1 (by exact_mod_cast high)
  rw [quantum]
  rcases low with rfl | low
  · omega
  · have below : 52 + t ≤ Int.log 2 v :=
      (Int.zpow_le_iff_le_log one_lt_two pos).1 (by exact_mod_cast low)
    omega

/-- The number `r · 2 ^ t`, where a mantissa that has grown to 54 digits loses its last one. -/
def carry (r : Nat) (t : ℤ) : UnpackedFloat :=
  if h : r = 0 then .zero .positive
  else if r < 2 ^ 53 then .finite .positive r t (Nat.pos_of_ne_zero h)
  else .finite .positive (2 ^ 52) (t + 1) (by positivity)

/-- The double nearest to a rational number that is not negative, before it is packed. -/
def nearest (v : ℚ) : UnpackedFloat :=
  carry (roundEven (v / 2 ^ quantum v)) (quantum v)

/-! ## The ends of the doubles -/

/-- Above the least exponent, the mantissa that is rounded has its leading digit. -/
theorem roundEven_full {v : ℚ} (pos : 0 < v) (above : -1074 < quantum v) :
    2 ^ 52 ≤ roundEven (v / 2 ^ quantum v) := by
  have last : quantum v = Int.log 2 v - 52 := by
    rw [quantum] at above ⊢
    omega
  have full : (2 : ℚ) ^ 52 * 2 ^ quantum v ≤ v := by
    calc (2 : ℚ) ^ 52 * 2 ^ quantum v = 2 ^ (52 + quantum v) := by
          rw [zpow_add₀ two_ne_zero, zpow_ofNat]
      _ = 2 ^ Int.log 2 v := by rw [last, add_sub_cancel]
      _ ≤ v := by exact_mod_cast Int.zpow_log_le_self one_lt_two pos
  rw [← not_lt, roundEven_lt_iff (by positivity) (by norm_num), not_lt, le_div_iff₀ (by positivity)]
  refine le_trans (mul_le_mul_of_nonneg_right ?_ (by positivity)) full
  norm_num

/-- Half of the least double: up to here, numbers are nearest to zero. -/
def underflow : ℚ :=
  2 ^ (-1075 : ℤ)

/-- The middle between the largest double and the next power of two: from here on, numbers are nearest to
    infinity. -/
def overflow : ℚ :=
  2 ^ 1024 - 2 ^ 970

theorem underflow_pos : 0 < underflow := by
  unfold underflow
  positivity

theorem underflow_eq : underflow = 1 / 2 * 2 ^ (-1074 : ℤ) := by
  rw [underflow, show (-1075 : ℤ) = -1 + -1074 by norm_num, zpow_add₀ two_ne_zero]
  norm_num

/-- The middle has one digit more than a double. -/
theorem overflow_eq : overflow = (2 ^ 53 - 1 / 2) * 2 ^ 971 := by
  rw [overflow, sub_mul, ← pow_add, pow_succ 2 970, one_div, inv_mul_eq_div,
    mul_div_cancel_right₀ _ two_ne_zero]

theorem two_pow_le_overflow : 2 ^ 1023 ≤ overflow := by
  rw [overflow_eq, show 1023 = 52 + 971 from rfl, pow_add]
  exact mul_le_mul_of_nonneg_right (by norm_num) (by positivity)

/-! ## The rounding of the format -/

theorem targetExponent_eq (total : ℤ) : binary64.targetExponent total = max (total - 53) (-1074) :=
  rfl

/-- A mantissa that is not shifted: it has no more than 53 digits. -/
theorem shift_none {m : Nat} {t : ℤ} (hm : m < 2 ^ 53) (ht : -1074 ≤ t) :
    shiftToTargetExponent binary64 m t .exact = (⟨m, false, false⟩, t) := by
  have digits : m.log2 < 53 := by
    rcases Nat.eq_zero_or_pos m with rfl | pos
    · decide
    · exact (Nat.log2_lt pos.ne').2 hm
  have target : binary64.targetExponent (totalExponent m t) ≤ t := by
    rw [targetExponent_eq, totalExponent]
    omega
  have stay : (binary64.targetExponent (totalExponent m t) - t).toNat = 0 := by omega
  rw [shiftToTargetExponent, shiftToExponent, stay]
  simp only [Nat.cast_zero, add_zero]
  rfl

/-- The one mantissa of 54 digits that rounding gives is shifted once. -/
theorem shift_once {t : ℤ} (ht : -1074 ≤ t) :
    shiftToTargetExponent binary64 (2 ^ 53) t .exact = (⟨2 ^ 52, false, false⟩, t + 1) := by
  have target : binary64.targetExponent (totalExponent (2 ^ 53) t) = t + 1 := by
    rw [targetExponent_eq, totalExponent, Nat.log2_two_pow]
    omega
  have once : (binary64.targetExponent (totalExponent (2 ^ 53) t) - t).toNat = 1 := by omega
  rw [shiftToTargetExponent, shiftToExponent, once]
  rfl

/-- What follows the first shift: the mantissa is rounded, and shifted again when it grew too long. -/
theorem roundWithAccuracy_eq_carry {m : Nat} {e t : ℤ} {accuracy : Accuracy} {em : ExtendedMantissa}
    (first : shiftToTargetExponent binary64 m e accuracy = (em, t)) (ht : -1074 ≤ t)
    (bound : em.roundedMantissa ≤ 2 ^ 53) :
    roundWithAccuracy binary64 .positive m e accuracy = carry em.roundedMantissa t := by
  rw [roundWithAccuracy, first]
  dsimp only
  generalize em.roundedMantissa = r at bound
  rcases bound.lt_or_eq with small | rfl
  · simp only [shift_none small ht, carry, small, if_true]
  · simp only [shift_once ht]
    rfl

/-- **Core rounds to the nearest double.** The number is `a / b · 2 ^ e`, given as a quotient with a
    remainder, and its exponent is not above that of the last digit that is kept. -/
theorem roundWithAccuracy_eq_nearest {a b : Nat} (ha : 0 < a) (hb : 0 < b) {e : ℤ}
    (he : e ≤ binary64.targetExponent (totalExponent (a / b) e)) :
    roundWithAccuracy binary64 .positive (a / b) e (accuracyOfFraction (a % b) b)
      = nearest (a / b * 2 ^ e) := by
  obtain ⟨n, hn⟩ : ∃ n : Nat, binary64.targetExponent (totalExponent (a / b) e) = e + n :=
    Int.le.dest he |>.imp fun n h => h.symm
  have target := hn
  rw [targetExponent_eq, totalExponent] at target
  have pos : 0 < b * 2 ^ n := by positivity
  have quotient : a / (b * 2 ^ n) = a / b / 2 ^ n := (Nat.div_div_eq_div_mul a b _).symm
  have few : a / (b * 2 ^ n) < 2 ^ 53 := by
    rw [quotient, Nat.div_lt_iff_lt_mul (by positivity), ← pow_add]
    rcases Nat.eq_zero_or_pos (a / b) with h0 | hpos
    · rw [h0]
      positivity
    · exact (Nat.log2_lt hpos.ne').1 (by omega)
  have many : e + n = -1074 ∨ 2 ^ 52 ≤ a / (b * 2 ^ n) := by
    rw [quotient, Nat.le_div_iff_mul_le (by positivity), ← pow_add]
    rcases Nat.eq_zero_or_pos (a / b) with h0 | hpos
    · rw [h0] at target
      left
      simp at target
      omega
    · exact or_iff_not_imp_left.2 fun h => (Nat.le_log2 hpos.ne').1 (by omega)
  -- the fraction that is rounded is the number in units of the last digit that is kept
  have unit : (0 : ℚ) < 2 ^ (e + n) := by positivity
  have scaled : (a / b * 2 ^ e : ℚ) / 2 ^ (e + n) = (a : ℚ) / (b * 2 ^ n : Nat) := by
    rw [zpow_add₀ two_ne_zero, zpow_natCast]
    push_cast
    field_simp
  have last : quantum (a / b * 2 ^ e) = e + n := by
    refine quantum_eq (by positivity) ?_ (many.imp_right ?_) (by omega)
    · rw [zpow_add₀ two_ne_zero, ← div_lt_iff₀ unit, scaled, div_lt_iff₀ (by positivity)]
      exact_mod_cast (Nat.div_lt_iff_lt_mul pos).1 few
    · intro h
      rw [zpow_add₀ two_ne_zero, ← le_div_iff₀ unit, scaled, le_div_iff₀ (by positivity)]
      exact_mod_cast (Nat.le_div_iff_mul_le pos).1 h
  have start : ExtendedMantissa.ofMantissaAndAccuracy (a / b) (accuracyOfFraction (a % b) b) >>> n
      = fraction a (b * 2 ^ n) := by
    rw [ofMantissaAndAccuracy_fraction a hb, shiftRight_fraction a hb]
  have first : shiftToTargetExponent binary64 (a / b) e (accuracyOfFraction (a % b) b)
      = (fraction a (b * 2 ^ n), e + n) := by
    rw [shiftToTargetExponent, shiftToExponent, hn, ← start]
    simp
  rw [nearest, last, scaled, roundEven_div a pos]
  exact roundWithAccuracy_eq_carry first (by omega) ((roundedMantissa_bounds _).2.trans few)

/-- The quotient of core has enough binary digits, or reaches down to the least exponent. -/
theorem quotient_exponent_le {m b : Nat} (hm : 0 < m) (hb : 0 < b) {d e : ℤ} {n : Nat} (he : e + n = d)
    (small : e ≤ max (d + m.log2 - b.log2 - 53) (-1074)) :
    e ≤ binary64.targetExponent (totalExponent (m * 2 ^ n / b) e) := by
  rw [targetExponent_eq, totalExponent]
  by_cases least : e ≤ -1074
  · exact le_max_of_le_right least
  · -- the shift makes the dividend at least 52 digits longer than the divisor
    have digits : b * 2 ^ 52 ≤ m * 2 ^ n := by
      have above : b * 2 ^ 52 ≤ 2 ^ (b.log2 + 1) * 2 ^ 52 :=
        Nat.mul_le_mul_right _ Nat.lt_log2_self.le
      have below : 2 ^ m.log2 * 2 ^ n ≤ m * 2 ^ n :=
        Nat.mul_le_mul_right _ (Nat.log2_self_le hm.ne')
      refine above.trans (le_trans ?_ below)
      rw [← pow_add, ← pow_add]
      exact Nat.pow_le_pow_right two_pos (by omega)
    have many : 2 ^ 52 ≤ m * 2 ^ n / b := (Nat.le_div_iff_mul_le hb).2 (by linarith)
    have log : 52 ≤ (m * 2 ^ n / b).log2 :=
      (Nat.le_log2 (Nat.ne_of_gt (lt_of_lt_of_le (by positivity) many))).2 many
    omega

/-- **A quotient is rounded once.** The division is carried out on a dividend that is long enough, and then
    rounded. -/
theorem div_eq_nearest {m b : Nat} (hm : 0 < m) (hb : 0 < b) (e k : ℤ) :
    UnpackedFloat.div binary64 (.finite .positive m e hm) (.finite .positive b k hb)
      = nearest (m * 2 ^ e / (b * 2 ^ k)) := by
  -- the exponent down to which the quotient is computed, and how far the dividend is shifted
  obtain ⟨t, ht⟩ : ∃ t : ℤ, t = min (e - k) (max (e - k + m.log2 - b.log2 - 53) (-1074)) := ⟨_, rfl⟩
  obtain ⟨n, hn⟩ : ∃ n : Nat, t + n = e - k := ⟨(e - k - t).toNat, by omega⟩
  have target : min (e - k) (binary64.targetExponent (totalExponent m e - totalExponent b k)) = t := by
    rw [targetExponent_eq, totalExponent, totalExponent]
    omega
  have shift : (e - k - t).toNat = n := by omega
  have core : divCore binary64 m e b k
      = (m * 2 ^ n / b, t, accuracyOfFraction (m * 2 ^ n % b) b) := by
    simp only [divCore, target, shift, Nat.shiftLeft_eq]
  have quotient : UnpackedFloat.div binary64 (.finite .positive m e hm) (.finite .positive b k hb)
      = roundWithAccuracy binary64 .positive (m * 2 ^ n / b) t
          (accuracyOfFraction (m * 2 ^ n % b) b) := by
    rw [UnpackedFloat.div, core]
    rfl
  rw [quotient, roundWithAccuracy_eq_nearest (by positivity) hb
    (quotient_exponent_le hm hb hn (by omega))]
  refine congrArg nearest ?_
  have power : (2 : ℚ) ^ e = 2 ^ t * 2 ^ n * 2 ^ k := by
    rw [← zpow_natCast, ← zpow_add₀ two_ne_zero, ← zpow_add₀ two_ne_zero, hn, sub_add_cancel]
  rw [power]
  push_cast
  field_simp

end Double

/-! ## Decimals -/

namespace Decimal

open Double

/-- The number that a decimal is. -/
def value (d : Decimal) : ℚ :=
  d.coefficient * 10 ^ d.exponent

/-- A product with a power of ten is rounded from an exact mantissa. -/
theorem ofScientific_of_nonneg {m k : Nat} (hm : 0 < m) (hk : (k : ℤ) ≤ 2048) :
    UnpackedFloat.ofScientific binary64 m k = nearest (m * 10 ^ k) := by
  have digits : 53 ≤ (m * 2 ^ 53 * 10 ^ k).log2 := by
    refine (Nat.le_log2 (by positivity)).2 ?_
    have ten : 1 ≤ 10 ^ k := Nat.one_le_pow k 10 (by norm_num)
    nlinarith
  have exponent : (-53 : ℤ)
      ≤ binary64.targetExponent (totalExponent (m * 2 ^ 53 * 10 ^ k / 1) (-53)) := by
    rw [Nat.div_one, targetExponent_eq, totalExponent]
    omega
  have product : UnpackedFloat.ofScientific binary64 m k
      = roundWithAccuracy binary64 .positive (m <<< 53 * 10 ^ k) (-53) .exact := by
    rw [UnpackedFloat.ofScientific, dif_neg hm.ne', if_neg (by show ¬ (k : ℤ) > 2048; omega),
      if_neg (by show ¬ (k : ℤ) < -(2048 + (m.log2 : ℤ)); omega), if_pos (by omega)]
    rfl
  have round := roundWithAccuracy_eq_nearest (by positivity) one_pos exponent
  rw [product, Nat.shiftLeft_eq]
  rw [Nat.div_one, Nat.mod_one] at round
  refine Eq.trans round (congrArg nearest ?_)
  push_cast
  rw [zpow_neg]
  field_simp
  norm_num

/-- A quotient by a power of ten is rounded from a whole part and a remainder. -/
theorem ofScientific_of_neg {m k : Nat} (hm : 0 < m) (hk : 0 < k)
    (low : -(2048 + (m.log2 : ℤ)) ≤ -(k : ℤ)) :
    UnpackedFloat.ofScientific binary64 m (-k) = nearest (m / 10 ^ k) := by
  have quotient := div_eq_nearest hm (b := 10 ^ k) (by positivity) 0 0
  rw [zpow_zero, mul_one, mul_one, Nat.cast_pow, Nat.cast_ofNat] at quotient
  rw [← quotient, UnpackedFloat.ofScientific, dif_neg hm.ne',
    if_neg (by show ¬ -(k : ℤ) > 2048; omega),
    if_neg (by show ¬ -(k : ℤ) < -(2048 + (m.log2 : ℤ)); omega), if_neg (by omega)]
  simp only [neg_neg, Int.toNat_natCast]

/-- A number beyond every double is nearest to infinity. -/
theorem pack_nearest_of_le {v : ℚ} (h : overflow ≤ v) :
    UnpackedFloat.pack binary64 (nearest v) = packedInfinity binary64 .positive := by
  have large : 2 ^ 1023 ≤ v := two_pow_le_overflow.trans h
  have pos : 0 < v := lt_of_lt_of_le (by positivity) large
  have top : 1023 ≤ Int.log 2 v :=
    (Int.zpow_le_iff_le_log one_lt_two pos).1 (by rwa [Nat.cast_ofNat, zpow_ofNat])
  have last : quantum v = Int.log 2 v - 52 := max_eq_left (by omega)
  have many : 2 ^ 53 ≤ roundEven (v / 2 ^ quantum v) ∨ 972 ≤ quantum v := by
    refine or_iff_not_imp_right.2 fun least => ?_
    have unit : quantum v = 971 := by omega
    rw [← not_lt, roundEven_lt_iff (by positivity) (by norm_num), unit, not_lt,
      le_div_iff₀ (by positivity)]
    rw [overflow_eq] at h
    exact_mod_cast h
  have full := roundEven_full pos (by omega)
  rw [nearest, carry, dif_neg (by omega)]
  split <;> exact pack_beyond _ _ (by omega)

/-- A number up to half of the least double is nearest to zero. -/
theorem nearest_of_le {v : ℚ} (pos : 0 < v) (h : v ≤ underflow) : nearest v = .zero .positive := by
  have last : quantum v = -1074 :=
    quantum_eq pos (h.trans_lt (zpow_lt_zpow_right₀ one_lt_two (by norm_num))) (.inl rfl) le_rfl
  have less : v / 2 ^ (-1074 : ℤ) ≤ 1 / 2 := by
    rwa [div_le_iff₀ (by positivity), ← underflow_eq]
  rw [nearest, last, (roundEven_eq_zero_iff (by positivity)).2 less]
  rfl

/-- Very small decimals are read as zero without being computed. -/
theorem ofScientific_of_low {m : Nat} {e : ℤ} (hm : 0 < m) (low : e < -(2048 + (m.log2 : ℤ))) :
    UnpackedFloat.ofScientific binary64 m e = .zero .positive := by
  rw [UnpackedFloat.ofScientific, dif_neg hm.ne', if_neg (by show ¬ e > 2048; omega)]
  exact if_pos low

theorem value_lt_of_low {m : Nat} {e : ℤ} (low : e < -(2048 + (m.log2 : ℤ))) :
    (m * 10 ^ e : ℚ) < underflow := by
  obtain ⟨k, rfl⟩ : ∃ k : Nat, e = -k := ⟨(-e).toNat, by omega⟩
  have digits : (m : ℚ) < 2 ^ (m.log2 + 1) := by exact_mod_cast Nat.lt_log2_self
  have power : (10 : ℚ) ^ (-(k : ℤ)) ≤ 2 ^ (-(k : ℤ)) := by
    rw [zpow_neg, zpow_neg, zpow_natCast, zpow_natCast]
    exact inv_anti₀ (by positivity) (pow_le_pow_left₀ (by norm_num) (by norm_num) k)
  calc (m * 10 ^ (-(k : ℤ)) : ℚ) < 2 ^ (m.log2 + 1) * 2 ^ (-(k : ℤ)) :=
        mul_lt_mul digits power (by positivity) (by positivity)
    _ = 2 ^ (((m.log2 + 1 : Nat) : ℤ) + -k) := by rw [zpow_add₀ two_ne_zero, zpow_natCast]
    _ ≤ 2 ^ (-1075 : ℤ) := zpow_le_zpow_right₀ one_le_two (by push_cast; omega)

/-- Very large decimals are read as infinity without being computed. -/
theorem ofScientific_of_high {m : Nat} {e : ℤ} (hm : 0 < m) (high : 2048 < e) :
    UnpackedFloat.ofScientific binary64 m e = .infinity .positive := by
  rw [UnpackedFloat.ofScientific, dif_neg hm.ne']
  exact if_pos high

theorem overflow_le_of_high {m : Nat} {e : ℤ} (hm : 0 < m) (high : 2048 < e) :
    overflow ≤ (m * 10 ^ e : ℚ) := by
  obtain ⟨k, rfl⟩ : ∃ k : Nat, e = k := ⟨e.toNat, by omega⟩
  have one_le : (1 : ℚ) ≤ m := by exact_mod_cast hm
  calc overflow ≤ 2 ^ 1024 := sub_le_self _ (by positivity)
    _ ≤ 2 ^ k := pow_le_pow_right₀ one_le_two (by omega)
    _ = 1 * 2 ^ k := (one_mul _).symm
    _ ≤ m * 10 ^ k :=
      mul_le_mul one_le (pow_le_pow_left₀ (by norm_num) (by norm_num) k) (by positivity) (by positivity)
    _ = m * 10 ^ (k : ℤ) := by rw [zpow_natCast]

/-- **Reading a decimal gives the double nearest to its value.** -/
theorem toFloat_eq_nearest (d : Decimal) : d.toFloat.toModel = Float.Model.pack (nearest d.value) := by
  obtain ⟨m, e⟩ := d
  show Float.Model.pack (UnpackedFloat.ofScientific binary64 m e)
    = Float.Model.pack (nearest (m * 10 ^ e))
  rcases Nat.eq_zero_or_pos m with rfl | hm
  · rw [UnpackedFloat.ofScientific, dif_pos rfl, Nat.cast_zero, zero_mul, nearest, zero_div]
    rw [show roundEven 0 = 0 from roundEven_natCast 0]
    rfl
  · -- core decides by the exponent alone outside this range, and computes inside it
    rcases lt_or_ge e (-(2048 + (m.log2 : ℤ))) with low | low
    · rw [ofScientific_of_low hm low, nearest_of_le (by positivity) (value_lt_of_low low).le]
    rcases lt_or_ge 2048 e with high | high
    · rw [ofScientific_of_high hm high]
      simp only [Float.Model.pack, pack_nearest_of_le (overflow_le_of_high hm high)]
      rfl
    · obtain ⟨k, rfl | rfl⟩ := e.eq_nat_or_neg
      · rw [ofScientific_of_nonneg hm high, zpow_natCast]
      · rcases Nat.eq_zero_or_pos k with rfl | hk
        · simpa using congrArg Float.Model.pack (ofScientific_of_nonneg (k := 0) hm (by norm_num))
        · rw [ofScientific_of_neg hm hk low, zpow_neg, zpow_natCast, div_eq_mul_inv]

end Decimal

end UnitCalc
