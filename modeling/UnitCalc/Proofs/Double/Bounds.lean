import UnitCalc.Proofs.Double.Finite

/-!
# `Proofs.Double.Bounds` — how much larger rounding makes a number

The nearest double of a number is larger than the number by half a unit of its last digit at most
(`value_nearest_le`). In terms of the number this is one part in `2 ^ 53`, or half of the least double where the last
digit is the least there is (`value_nearest_le_growth`). Quotients and whole doubles are rounded once, and are bounded
by their exact values in this way (`magnitude_div_le`, `magnitude_round_le`).
-/

namespace UnitCalc.Double

open Float.Model Float.Model.UnpackedFloat Float.Model.Format

/-! ## The nearest double -/

/-- By what rounding may enlarge a number that keeps all its digits. -/
def growth : ℚ :=
  1 + 2 ^ (-53 : ℤ)

theorem one_le_growth : 1 ≤ growth := by
  rw [growth, le_add_iff_nonneg_right]
  positivity

/-- A mantissa that has grown to 54 digits stands for the same number without its last one. -/
theorem value_of_carry {r m : Nat} {t e : ℤ} {s : Sign} {pos : 0 < m} (bound : r ≤ 2 ^ 53)
    (h : carry r t = .finite s m e pos) : (m * 2 ^ e : ℚ) = r * 2 ^ t := by
  rw [carry] at h
  split at h
  · cases h
  · split at h
    · cases h
      rfl
    · next long =>
      obtain rfl : r = 2 ^ 53 := le_antisymm bound (not_lt.1 long)
      cases h
      rw [zpow_add₀ two_ne_zero]
      push_cast
      ring

section Nearest

variable {v : ℚ} {s : Sign} {m : Nat} {e : ℤ} {pos : 0 < m}

/-- The nearest double is a whole number of units of the last digit. -/
theorem value_nearest (vpos : 0 < v) (h : nearest v = .finite s m e pos) :
    (m * 2 ^ e : ℚ) = roundEven (v / 2 ^ quantum v) * 2 ^ quantum v := by
  have digits : Int.log 2 v + 1 ≤ 53 + quantum v := by
    unfold quantum
    omega
  have high : v < 2 ^ 53 * 2 ^ quantum v :=
    calc v < 2 ^ (Int.log 2 v + 1) := by exact_mod_cast Int.lt_zpow_succ_log_self one_lt_two v
      _ ≤ 2 ^ (53 + quantum v) := zpow_le_zpow_right₀ one_le_two digits
      _ = 2 ^ 53 * 2 ^ quantum v := by rw [zpow_add₀ two_ne_zero, zpow_ofNat]
  refine value_of_carry ?_ h
  rw [roundEven_le_iff (by positivity) (by norm_num), div_le_iff₀ (by positivity)]
  push_cast
  linarith [zpow_pos (two_pos : (0 : ℚ) < 2) (quantum v)]

/-- Rounding adds no more than half a unit of the last digit. -/
theorem value_nearest_le (vpos : 0 < v) (h : nearest v = .finite s m e pos) :
    (m * 2 ^ e : ℚ) ≤ v + 2 ^ quantum v / 2 := by
  have near := nearestEven_roundEven (y := v / 2 ^ quantum v) (by positivity)
  calc (m * 2 ^ e : ℚ) = roundEven (v / 2 ^ quantum v) * 2 ^ quantum v := value_nearest vpos h
    _ ≤ (v / 2 ^ quantum v + 1 / 2) * 2 ^ quantum v := mul_le_mul_of_nonneg_right near.ge (by positivity)
    _ = v + 2 ^ quantum v / 2 := by
      rw [add_mul, div_mul_cancel₀ _ (by positivity)]
      ring

/-- **Rounding enlarges a number by one part in `2 ^ 53` at most**, or by half of the least double. -/
theorem value_nearest_le_growth (vpos : 0 < v) (h : nearest v = .finite s m e pos) :
    (m * 2 ^ e : ℚ) ≤ v * growth + underflow := by
  have unit : (2 : ℚ) ^ quantum v / 2 ≤ v * 2 ^ (-53 : ℤ) + underflow := by
    rcases le_total (Int.log 2 v - 52) (-1074) with least | above
    · have last : quantum v = -1074 := max_eq_right least
      have half : (2 : ℚ) ^ (-1074 : ℤ) / 2 = underflow := by
        rw [underflow_eq]
        ring
      rw [last, half]
      exact le_add_of_nonneg_left (by positivity)
    · have last : quantum v = Int.log 2 v - 52 := max_eq_left above
      have log : (2 : ℚ) ^ Int.log 2 v ≤ v := by exact_mod_cast Int.zpow_log_le_self one_lt_two vpos
      calc (2 : ℚ) ^ quantum v / 2 = 2 ^ Int.log 2 v * 2 ^ (-53 : ℤ) := by
            rw [last, sub_eq_add_neg, zpow_add₀ two_ne_zero]
            ring
        _ ≤ v * 2 ^ (-53 : ℤ) := mul_le_mul_of_nonneg_right log (by positivity)
        _ ≤ v * 2 ^ (-53 : ℤ) + underflow := le_add_of_nonneg_right underflow_pos.le
  calc (m * 2 ^ e : ℚ) ≤ v + 2 ^ quantum v / 2 := value_nearest_le vpos h
    _ ≤ v + (v * 2 ^ (-53 : ℤ) + underflow) := by gcongr
    _ = v * growth + underflow := by
      rw [growth]
      ring

end Nearest

/-! ## Operations -/

section Operations

variable {x y : Float}

/-- What is no finite double has no magnitude. -/
theorem magnitude_of_not_isFinite (h : ¬ x.isFinite = true) : magnitude x = 0 := by
  rw [isFinite_eq] at h
  rw [magnitude, parts?]
  cases eq : x.toModel.unpack with
  | zero s | finite s =>
    rw [eq] at h
    exact absurd rfl h
  | infinity s | notANumber => rfl

theorem magnitude_neg (x : Float) : magnitude (-x) = magnitude x := by
  rw [magnitude, magnitude, parts?, parts?, unpack_neg]
  cases x.toModel.unpack <;> rfl

/-- **A double that is rounded from a number is larger by one part in `2 ^ 53` at most**, or by half of the least
double. -/
theorem magnitude_nearest_le (s : Sign) {v : ℚ} (pos : 0 < v) :
    magnitude ⟨Float.Model.pack (withSign s (nearest v))⟩ ≤ v * growth + underflow := by
  have nonneg : 0 ≤ v * growth + underflow :=
    add_nonneg (mul_nonneg pos.le (zero_le_one.trans one_le_growth)) underflow_pos.le
  rcases le_or_gt v underflow with low | low
  · have zero : (⟨Float.Model.pack (withSign s (nearest v))⟩ : Float).toModel.unpack = .zero s := by
      rw [Decimal.nearest_of_le pos low]
      exact unpack_pack trivial
    rwa [magnitude_zero zero]
  rcases lt_or_ge v overflow with high | high
  · obtain ⟨m, e, some_digit, round, format⟩ := exists_nearest low high
    have unpacked : (⟨Float.Model.pack (withSign s (nearest v))⟩ : Float).toModel.unpack
        = .finite s m e some_digit := by
      rw [round]
      exact unpack_pack format
    rw [magnitude_eq unpacked]
    exact value_nearest_le_growth pos round
  · have infinite : ¬ (⟨Float.Model.pack (withSign s (nearest v))⟩ : Float).isFinite = true :=
      fun finite => not_lt.2 high ((isFinite_pack_nearest s pos).1 finite)
    rwa [magnitude_of_not_isFinite infinite]

theorem magnitude_div_le (hx : x.isFinite = true) (hy : Scalar.isFactor y = true) :
    magnitude (x / y) ≤ magnitude x / magnitude y * growth + underflow := by
  obtain ⟨none, s, zero⟩ | ⟨some_digit, s, quotient⟩ := div_cases hx hy
  · rw [magnitude_zero zero, none, zero_div, zero_mul, zero_add]
    exact underflow_pos.le
  · rw [quotient]
    exact magnitude_nearest_le s (div_pos some_digit (magnitude_pos hy))

theorem magnitude_ofWhole_le (negative : Bool) (n : Nat) :
    magnitude (ofWhole negative n) ≤ n * growth + underflow := by
  have unsigned : magnitude ⟨.ofNat n⟩ ≤ n * growth + underflow := by
    show magnitude ⟨Float.Model.pack (UnpackedFloat.ofNat binary64 n)⟩ ≤ _
    rcases Nat.eq_zero_or_pos n with rfl | pos
    · have zero : (⟨Float.Model.pack (UnpackedFloat.ofNat binary64 0)⟩ : Float).toModel.unpack
          = .zero .positive := rfl
      rw [magnitude_zero zero, Nat.cast_zero, zero_mul, zero_add]
      exact underflow_pos.le
    · rw [ofNat_eq_nearest pos, ← withSign_nearest]
      exact magnitude_nearest_le _ (by exact_mod_cast pos)
  cases negative with
  | false => exact unsigned
  | true => exact (magnitude_neg _).trans_le unsigned

/-- A fraction rounded to a whole number, a half up, grows by one half at most. -/
theorem round_half_le (m : Nat) {u : Nat} (unit : 0 < u) :
    ((if u ≤ 2 * (m % u) then m / u + 1 else m / u : Nat) : ℚ) ≤ m / u + 1 / 2 := by
  have pos : (0 : ℚ) < u := by exact_mod_cast unit
  rw [← whole_add_rest m unit]
  split_ifs with up
  · have more : 1 / 2 ≤ ((m % u : Nat) : ℚ) / u := by
      rw [div_le_div_iff₀ two_pos pos]
      exact_mod_cast (by omega : 1 * u ≤ m % u * 2)
    push_cast
    linarith
  · have rest : 0 ≤ ((m % u : Nat) : ℚ) / u := by positivity
    linarith

/-- **Rounding to the nearest whole number adds one half at most**, and then what the whole number is rounded by. -/
theorem magnitude_round_le (x : Float) : magnitude (round x) ≤ (magnitude x + 1 / 2) * growth + underflow := by
  have same : magnitude x ≤ (magnitude x + 1 / 2) * growth + underflow :=
    calc magnitude x ≤ magnitude x + 1 / 2 := le_add_of_nonneg_right (by norm_num)
      _ ≤ (magnitude x + 1 / 2) * growth :=
        le_mul_of_one_le_right (add_nonneg (magnitude_nonneg x) (by norm_num)) one_le_growth
      _ ≤ (magnitude x + 1 / 2) * growth + underflow := le_add_of_nonneg_right underflow_pos.le
  rw [round, toWhole]
  split
  · exact same
  · next p parts =>
    split
    · exact same
    · next k places =>
      have unit : 0 < 1 <<< (k + 1) := by
        rw [Nat.shiftLeft_eq]
        positivity
      have value : magnitude x = p.mantissa / (1 <<< (k + 1) : Nat) := by
        rw [magnitude, parts]
        dsimp only
        rw [places, zpow_negSucc, Nat.shiftLeft_eq, one_mul, Nat.cast_pow, Nat.cast_ofNat, div_eq_mul_inv]
      have half := round_half_le p.mantissa unit
      rw [← value] at half
      refine (magnitude_ofWhole_le _ _).trans ?_
      exact add_le_add_left (mul_le_mul_of_nonneg_right half (zero_le_one.trans one_le_growth)) _

end Operations

end UnitCalc.Double
