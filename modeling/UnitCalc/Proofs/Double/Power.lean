import UnitCalc.Double.Arithmetic
import UnitCalc.Proofs.Double.Bounds

/-!
# `Proofs.Double.Power` — repeated squaring between the ends

`powNat` rounds after every product, so that what it gives is not the exact power. How far it may lie above is
bounded here: a product of doubles that are not below one is rounded to such a double, and rounding adds at most
one part in `2 ^ 53` (`AtLeastOne.mul`).

## Contents
- **One product.** `nearest_bounds`, `AtLeastOne.mul`.
- **The loop.** A turn of the squaring loop does not increase `r * (a * growth) ^ n`. While this lies below the end
  of the doubles no product of the loop leaves them, and the result lies below it (`powNatLoop_bounds`).
- **Powers of ten.** All that a count of decimal places asks for are finite (`powNat_ten_bounds`).
-/

namespace UnitCalc.Double

open Float.Model Float.Model.UnpackedFloat Float.Model.Format Decimal

/-! ## One product -/

/-- **Rounding a number that is not below one gives such a number, and not much more.** -/
theorem nearest_bounds {v : ℚ} {s : Sign} {m : Nat} {e : ℤ} {pos : 0 < m} (one : 1 ≤ v)
    (h : nearest v = .finite s m e pos) : 1 ≤ (m * 2 ^ e : ℚ) ∧ (m * 2 ^ e : ℚ) ≤ v * growth := by
  have vpos : 0 < v := one_pos.trans_le one
  have log : 0 ≤ Int.log 2 v := (Int.zpow_le_iff_le_log one_lt_two vpos).1 (by rwa [zpow_zero])
  have last : quantum v = Int.log 2 v - 52 := max_eq_left (by omega)
  have unit : (2 : ℚ) ^ Int.log 2 v = 2 ^ 52 * 2 ^ quantum v := by
    rw [last, ← zpow_ofNat, ← zpow_add₀ two_ne_zero, add_sub_cancel]
  have full := roundEven_full vpos (by omega)
  constructor
  · calc (1 : ℚ) = 2 ^ (0 : ℤ) := (zpow_zero 2).symm
      _ ≤ 2 ^ Int.log 2 v := zpow_le_zpow_right₀ one_le_two log
      _ = 2 ^ 52 * 2 ^ quantum v := unit
      _ ≤ roundEven (v / 2 ^ quantum v) * 2 ^ quantum v :=
        mul_le_mul_of_nonneg_right (by exact_mod_cast full) (by positivity)
      _ = m * 2 ^ e := (value_nearest vpos h).symm
  · have low : (2 : ℚ) ^ 52 * 2 ^ quantum v ≤ v := by
      rw [← unit]
      exact_mod_cast Int.zpow_log_le_self one_lt_two vpos
    calc (m * 2 ^ e : ℚ) ≤ v + 2 ^ quantum v / 2 := value_nearest_le vpos h
      _ = v + 2 ^ 52 * 2 ^ quantum v * 2 ^ (-53 : ℤ) := by ring
      _ ≤ v + v * 2 ^ (-53 : ℤ) := by gcongr
      _ = v * growth := by rw [growth, mul_add, mul_one]

/-- A finite double that is not below one. -/
structure AtLeastOne (x : Float) : Prop where
  factor : Scalar.isFactor x = true
  le : 1 ≤ magnitude x

/-- **A product below the end of the doubles is rounded to a double that is not below one.** -/
theorem AtLeastOne.mul {x y : Float} (hx : AtLeastOne x) (hy : AtLeastOne y)
    (high : magnitude x * magnitude y < overflow) :
    AtLeastOne (x * y) ∧ magnitude (x * y) ≤ magnitude x * magnitude y * growth := by
  have one : 1 ≤ magnitude x * magnitude y := one_le_mul_of_one_le_of_one_le hx.le hy.le
  have low : underflow < magnitude x * magnitude y :=
    (zpow_lt_one_of_neg₀ one_lt_two (by norm_num)).trans_le one
  obtain ⟨m, e, pos, round, format⟩ := exists_nearest low high
  have unpacked : (x * y).toModel.unpack = .finite .positive m e pos := by
    rw [mul_eq_pack hx.factor hy.factor, round]
    exact unpack_pack format
  rw [magnitude_eq unpacked]
  obtain ⟨atLeast, atMost⟩ := nearest_bounds one round
  exact ⟨⟨isFactor_iff.2 ⟨m, e, pos, unpacked⟩, by rwa [magnitude_eq unpacked]⟩, atMost⟩

/-! ## The loop -/

/-- What the loop multiplies by is not below one, with room for rounding. -/
theorem AtLeastOne.le_growth {a : Float} (h : AtLeastOne a) : 1 ≤ magnitude a * growth :=
  one_le_mul_of_one_le_of_one_le h.le one_le_growth

theorem AtLeastOne.magnitude_le {a : Float} (h : AtLeastOne a) : magnitude a ≤ magnitude a * growth :=
  le_mul_of_one_le_right (zero_le_one.trans h.le) one_le_growth

/-- The first half of a turn: where the last binary digit of the exponent is set, the result takes up a factor. -/
theorem AtLeastOne.take {r a : Float} {n : Nat} (hr : AtLeastOne r) (ha : AtLeastOne a)
    (high : magnitude r * (magnitude a * growth) ^ n < overflow) :
    AtLeastOne (if n % 2 = 1 then r * a else r) ∧
      magnitude (if n % 2 = 1 then r * a else r) ≤ magnitude r * (magnitude a * growth) ^ (n % 2) := by
  split
  · next odd =>
    have some_digit : 1 ≤ n := by omega
    have power : magnitude a ≤ (magnitude a * growth) ^ n :=
      ha.magnitude_le.trans (le_self_pow₀ ha.le_growth (by omega))
    have product : magnitude r * magnitude a < overflow :=
      (mul_le_mul_of_nonneg_left power (zero_le_one.trans hr.le)).trans_lt high
    obtain ⟨atLeast, atMost⟩ := hr.mul ha product
    rw [odd, pow_one, ← mul_assoc]
    exact ⟨atLeast, atMost⟩
  · next even =>
    rw [Nat.mod_two_ne_one.1 even, pow_zero, mul_one]
    exact ⟨hr, le_rfl⟩

/-- The second half of a turn: the factor is squared, while digits of the exponent are left. -/
theorem AtLeastOne.square {r a : Float} {n : Nat} (hr : AtLeastOne r) (ha : AtLeastOne a) (left : n / 2 ≠ 0)
    (high : magnitude r * (magnitude a * growth) ^ n < overflow) :
    AtLeastOne (a * a) ∧ magnitude (a * a) * growth ≤ (magnitude a * growth) ^ 2 := by
  have nonneg : 0 ≤ magnitude a := zero_le_one.trans ha.le
  have square : magnitude a * magnitude a ≤ (magnitude a * growth) ^ n :=
    calc magnitude a * magnitude a
        ≤ (magnitude a * growth) ^ 2 := by
          rw [sq]
          exact mul_self_le_mul_self nonneg ha.magnitude_le
      _ ≤ (magnitude a * growth) ^ n := pow_le_pow_right₀ ha.le_growth (by omega)
  have product : magnitude a * magnitude a < overflow :=
    (square.trans (le_mul_of_one_le_left (zero_le_one.trans (one_le_pow₀ ha.le_growth)) hr.le)).trans_lt high
  obtain ⟨atLeast, atMost⟩ := ha.mul ha product
  refine ⟨atLeast, ?_⟩
  calc magnitude (a * a) * growth
      ≤ magnitude a * magnitude a * growth * growth :=
        mul_le_mul_of_nonneg_right atMost (zero_le_one.trans one_le_growth)
    _ = (magnitude a * growth) ^ 2 := by ring

/-- **The squaring loop stays between one and its bound.** The bound is what the loop would give if each of its
    products were enlarged as far as rounding can. -/
theorem powNatLoop_bounds (turns : Nat) {r a : Float} {n : Nat} (hr : AtLeastOne r) (ha : AtLeastOne a)
    (high : magnitude r * (magnitude a * growth) ^ n < overflow) :
    AtLeastOne (powNatLoop turns r a n) ∧
      magnitude (powNatLoop turns r a n) ≤ magnitude r * (magnitude a * growth) ^ n := by
  induction turns generalizing r a n with
  | zero => exact ⟨hr, le_mul_of_one_le_right (zero_le_one.trans hr.le) (one_le_pow₀ ha.le_growth)⟩
  | succ turns ih =>
    obtain ⟨taken, takenLe⟩ := hr.take ha high
    rw [powNatLoop]
    generalize (if n % 2 = 1 then r * a else r) = r' at taken takenLe
    split
    · next last =>
      obtain single : n % 2 = n := by omega
      rw [single] at takenLe
      exact ⟨taken, takenLe⟩
    · next left =>
      obtain ⟨squared, squaredLe⟩ := hr.square ha left high
      have bound : magnitude r' * (magnitude (a * a) * growth) ^ (n / 2)
          ≤ magnitude r * (magnitude a * growth) ^ n :=
        calc magnitude r' * (magnitude (a * a) * growth) ^ (n / 2)
            ≤ magnitude r * (magnitude a * growth) ^ (n % 2) * ((magnitude a * growth) ^ 2) ^ (n / 2) :=
              mul_le_mul takenLe (pow_le_pow_left₀ (zero_le_one.trans squared.le_growth) squaredLe _)
                (pow_nonneg (zero_le_one.trans squared.le_growth) _)
                (mul_nonneg (zero_le_one.trans hr.le) (pow_nonneg (zero_le_one.trans ha.le_growth) _))
          _ = magnitude r * (magnitude a * growth) ^ n := by
              rw [mul_assoc, ← pow_mul, ← pow_add, Nat.mod_add_div]
      obtain ⟨atLeast, atMost⟩ := ih taken squared (bound.trans_lt high)
      exact ⟨atLeast, atMost.trans bound⟩

/-! ## Powers of ten -/

theorem magnitude_one : magnitude 1.0 = 1 := by
  rw [magnitude, show parts? 1.0 = some ⟨false, 2 ^ 52, -52⟩ by decide]
  norm_num

theorem magnitude_ten : magnitude 10 = 10 := by
  rw [magnitude, show parts? 10 = some ⟨false, 5 * 2 ^ 50, -49⟩ by decide]
  norm_num

/-- The largest power of ten among the doubles, in factors that are small enough to be computed. -/
theorem ten_pow_eq : (10 : ℚ) ^ 308 = (10 ^ 154) ^ 2 := by
  rw [← pow_mul]

/-- The end of the doubles, in such factors too. -/
theorem overflow_eq_mul : overflow = (2 ^ 194) ^ 5 * (2 ^ 54 - 1) := by
  rw [overflow, mul_sub, mul_one, ← pow_mul, ← pow_add]

theorem ten_pow_growth_le : (10 * growth) ^ 308 ≤ 5 / 4 * 10 ^ 308 := by
  have room : (10 * growth) ^ 154 ≤ 11 / 10 * 10 ^ 154 := by
    rw [growth]
    norm_num
  calc (10 * growth) ^ 308 = ((10 * growth) ^ 154) ^ 2 := by rw [← pow_mul]
    _ ≤ (11 / 10 * 10 ^ 154) ^ 2 := pow_le_pow_left₀ (by unfold growth; positivity) room 2
    _ ≤ 5 / 4 * (10 ^ 154) ^ 2 := by
      rw [mul_pow]
      gcongr
      norm_num
    _ = 5 / 4 * 10 ^ 308 := by rw [ten_pow_eq]

/-- **The powers of ten for decimal places are finite and not below one.** Rounding takes none of them further than
a quarter beyond the largest exact one. -/
theorem powNat_ten_bounds {k : Nat} (h : k ≤ 308) :
    AtLeastOne (powNat 10 k) ∧ magnitude (powNat 10 k) ≤ 5 / 4 * 10 ^ 308 := by
  have one : AtLeastOne 1.0 := ⟨by decide, magnitude_one.ge⟩
  have ten : AtLeastOne 10 := ⟨by decide, by rw [magnitude_ten]; norm_num⟩
  have bound : magnitude 1.0 * (magnitude 10 * growth) ^ k ≤ 5 / 4 * 10 ^ 308 :=
    calc magnitude 1.0 * (magnitude 10 * growth) ^ k
        = (magnitude 10 * growth) ^ k := by rw [magnitude_one, one_mul]
      _ ≤ (magnitude 10 * growth) ^ 308 := pow_le_pow_right₀ ten.le_growth h
      _ ≤ 5 / 4 * 10 ^ 308 := by
        rw [magnitude_ten]
        exact ten_pow_growth_le
  have high : (5 / 4 * 10 ^ 308 : ℚ) < overflow := by
    rw [ten_pow_eq, overflow_eq_mul]
    norm_num
  obtain ⟨atLeast, atMost⟩ := powNatLoop_bounds (k + 1) one ten (bound.trans_lt high)
  exact ⟨atLeast, atMost.trans bound⟩

end UnitCalc.Double
