import UnitCalc.Double.Whole
import UnitCalc.Proofs.Double.Range

/-!
# `Proofs.Double.Finite` — where operations leave the finite doubles

A product or a quotient of a finite double by a factor, a positive finite double, is rounded once, and it is finite
exactly when the exact result lies below the end of the doubles (`isFinite_mul_iff`, `isFinite_div_iff`). Signs play
no part in that, since core rounds the magnitude alone. To make a finite double whole keeps it finite
(`isFinite_toWhole`): it has at most 53 digits before the point, and rounding adds no more than one.
-/

namespace UnitCalc.Double

open Float.Model Float.Model.UnpackedFloat Float.Model.Format

/-! ## Packing -/

/-- A number beyond the largest exponent is unpacked as an infinity. -/
theorem unpack_pack_beyond {s : Sign} {m : Nat} {e : ℤ} {pos : 0 < m} (beyond : 971 < e) :
    (Float.Model.pack (.finite s m e pos)).unpack = .infinity s := by
  have infinite : Float.Model.pack (.finite s m e pos) = Float.Model.pack (.infinity s) := by
    simp only [Float.Model.pack, pack_beyond s pos beyond]
    rfl
  rw [infinite, unpack_pack (u := .infinity s) trivial]

/-- **What is packed is finite when its exponent is.** -/
theorem isFinite_unpack_pack {s : Sign} {m : Nat} {e : ℤ} {pos : 0 < m} :
    (Float.Model.pack (.finite s m e pos)).unpack.isFinite = true ↔ e ≤ 971 := by
  rcases lt_or_ge 971 e with beyond | within
  · rw [unpack_pack_beyond beyond]
    exact iff_of_false nofun (not_le.2 beyond)
  · obtain ⟨E, M, room, fields⟩ : ∃ E M, E ≠ -1#11
        ∧ UnpackedFloat.pack binary64 (.finite s m e pos) = packComponents binary64 s E M := by
      rw [UnpackedFloat.pack]
      dsimp only
      rw [if_neg (by show ¬ 2 ^ 11 ≤ (e + 1023 + 52).toNat + 1; omega)]
      split
      · refine ⟨_, _, ?_, rfl⟩
        rw [Ne, ← BitVec.toNat_inj, BitVec.toNat_ofNat]
        show (e + 1023 + 52).toNat % 2 ^ 11 ≠ 2047
        omega
      · exact ⟨_, _, by decide, rfl⟩
    refine iff_of_true ?_ within
    simp only [Float.Model.pack, Float.Model.unpack, fields, UnpackedFloat.unpack,
      unpackExponent_packComponents, unpackMantissa_packComponents, sign_packComponents]
    rw [if_neg room]
    split
    · split <;> rfl
    · rfl

theorem isFinite_pack_withSign (s : Sign) (u : UnpackedFloat) :
    (Float.Model.pack (withSign s u)).unpack.isFinite = (Float.Model.pack u).unpack.isFinite := by
  cases u with
  | notANumber => rfl
  | infinity t | zero t => cases s <;> cases t <;> rfl
  | finite t m e pos => rw [Bool.eq_iff_iff, withSign, isFinite_unpack_pack, isFinite_unpack_pack]

/-- **Between zero and the end of the doubles, the nearest double is finite**, with either sign. -/
theorem isFinite_pack_nearest (s : Sign) {v : ℚ} (pos : 0 < v) :
    (Float.Model.pack (withSign s (nearest v))).unpack.isFinite = true ↔ v < overflow := by
  rw [isFinite_pack_withSign]
  rcases lt_or_ge v overflow with high | high
  · refine iff_of_true ?_ high
    rcases lt_or_ge underflow v with low | low
    · obtain ⟨m, e, some_digit, round, format⟩ := exists_nearest low high
      rw [round, unpack_pack format]
      rfl
    · rw [Decimal.nearest_of_le pos low]
      rfl
  · have infinite : Float.Model.pack (nearest v) = Float.Model.pack (.infinity .positive) := by
      simp only [Float.Model.pack, Decimal.pack_nearest_of_le high]
      rfl
    rw [infinite, unpack_pack (u := .infinity .positive) trivial]
    exact iff_of_false Bool.false_ne_true (not_lt.2 high)

/-- The nearest double of a number that is not negative has no minus sign. -/
theorem withSign_nearest (v : ℚ) : withSign .positive (nearest v) = nearest v := by
  rw [nearest, carry]
  split
  · rfl
  · split <;> rfl

/-! ## Products and quotients -/

section Operations

variable {x y : Float}

/-- A finite double is a zero, or a mantissa with an exponent. -/
theorem finite_cases (h : x.isFinite = true) :
    (∃ s, x.toModel.unpack = .zero s) ∨ ∃ s m e, ∃ pos : 0 < m, x.toModel.unpack = .finite s m e pos := by
  rw [isFinite_eq] at h
  cases eq : x.toModel.unpack with
  | zero s => exact .inl ⟨s, rfl⟩
  | finite s m e pos => exact .inr ⟨s, m, e, pos, rfl⟩
  | _ =>
    rw [eq] at h
    cases h

theorem magnitude_zero {s : Sign} (h : x.toModel.unpack = .zero s) : magnitude x = 0 := by
  rw [magnitude, parts?, h]
  simp

theorem overflow_pos : 0 < overflow :=
  lt_of_lt_of_le (by positivity) two_pow_le_overflow

/-- A product by a factor is a zero, or it is rounded from the exact product. -/
theorem mul_cases (hx : x.isFinite = true) (hy : Scalar.isFactor y = true) :
    (magnitude x = 0 ∧ ∃ s, (x * y).toModel.unpack = .zero s)
      ∨ 0 < magnitude x
        ∧ ∃ s, x * y = ⟨Float.Model.pack (withSign s (nearest (magnitude x * magnitude y)))⟩ := by
  obtain ⟨n, k, hn, ey⟩ := isFactor_iff.1 hy
  have product : x * y = ⟨Float.Model.pack (x.toModel.unpack.mul binary64 (.finite .positive n k hn))⟩ := by
    rw [← ey]
    rfl
  rw [product]
  obtain ⟨s, ex⟩ | ⟨s, m, e, hm, ex⟩ := finite_cases hx
  · left
    refine ⟨magnitude_zero ex, s * .positive, ?_⟩
    rw [ex]
    show (Float.Model.pack (.zero (s * .positive))).unpack = .zero (s * .positive)
    exact unpack_pack trivial
  · have format := representable_unpack x.toModel
    have format' := representable_unpack y.toModel
    rw [ex] at format
    rw [ey] at format'
    have signed : UnpackedFloat.mul binary64 (.finite s m e hm) (.finite .positive n k hn)
        = withSign (s * .positive)
            (UnpackedFloat.mul binary64 (.finite .positive m e hm) (.finite .positive n k hn)) :=
      roundWithAccuracy_withSign _ _ _ _
    right
    rw [magnitude_eq ex, magnitude_eq ey, ← mul_eq_nearest (representable_positive format) format', ex, signed]
    exact ⟨by positivity, _, rfl⟩

/-- A quotient by a factor is a zero, or it is rounded from the exact quotient. -/
theorem div_cases (hx : x.isFinite = true) (hy : Scalar.isFactor y = true) :
    (magnitude x = 0 ∧ ∃ s, (x / y).toModel.unpack = .zero s)
      ∨ 0 < magnitude x
        ∧ ∃ s, x / y = ⟨Float.Model.pack (withSign s (nearest (magnitude x / magnitude y)))⟩ := by
  obtain ⟨n, k, hn, ey⟩ := isFactor_iff.1 hy
  have quotient : x / y = ⟨Float.Model.pack (x.toModel.unpack.div binary64 (.finite .positive n k hn))⟩ := by
    rw [← ey]
    rfl
  rw [quotient]
  obtain ⟨s, ex⟩ | ⟨s, m, e, hm, ex⟩ := finite_cases hx
  · left
    refine ⟨magnitude_zero ex, s / .positive, ?_⟩
    rw [ex]
    show (Float.Model.pack (.zero (s / .positive))).unpack = .zero (s / .positive)
    exact unpack_pack trivial
  · have signed : UnpackedFloat.div binary64 (.finite s m e hm) (.finite .positive n k hn)
        = withSign (s / .positive)
            (UnpackedFloat.div binary64 (.finite .positive m e hm) (.finite .positive n k hn)) :=
      roundWithAccuracy_withSign _ _ _ _
    right
    rw [magnitude_eq ex, magnitude_eq ey, ← div_eq_nearest hm hn, ex, signed]
    exact ⟨by positivity, _, rfl⟩

theorem isFinite_of_zero {s : Sign} (h : x.toModel.unpack = .zero s) : x.isFinite = true := by
  rw [isFinite_eq, h]
  rfl

/-- **A product by a factor is finite when the exact product lies below the end of the doubles.** -/
theorem isFinite_mul_iff (hx : x.isFinite = true) (hy : Scalar.isFactor y = true) :
    (x * y).isFinite = true ↔ magnitude x * magnitude y < overflow := by
  obtain ⟨none, s, zero⟩ | ⟨some_digit, s, product⟩ := mul_cases hx hy
  · rw [none, zero_mul]
    exact iff_of_true (isFinite_of_zero zero) overflow_pos
  · rw [product]
    exact isFinite_pack_nearest s (mul_pos some_digit (magnitude_pos hy))

/-- **A quotient by a factor is finite when the exact quotient lies below the end of the doubles.** -/
theorem isFinite_div_iff (hx : x.isFinite = true) (hy : Scalar.isFactor y = true) :
    (x / y).isFinite = true ↔ magnitude x / magnitude y < overflow := by
  obtain ⟨none, s, zero⟩ | ⟨some_digit, s, quotient⟩ := div_cases hx hy
  · rw [none, zero_div]
    exact iff_of_true (isFinite_of_zero zero) overflow_pos
  · rw [quotient]
    exact isFinite_pack_nearest s (div_pos some_digit (magnitude_pos hy))

/-- A finite double lies below the end of the doubles. -/
theorem magnitude_lt_overflow (x : Float) : magnitude x < overflow := by
  have format := representable_unpack x.toModel
  cases eq : x.toModel.unpack with
  | finite s m e pos =>
    rw [eq] at format
    obtain ⟨short, -, -, top⟩ := format
    have digits : (m : ℚ) ≤ 2 ^ 53 - 1 := by
      rw [le_sub_iff_add_le]
      exact_mod_cast short
    calc magnitude x = m * 2 ^ e := magnitude_eq eq
      _ ≤ (2 ^ 53 - 1) * 2 ^ (971 : ℤ) :=
        mul_le_mul digits (zpow_le_zpow_right₀ one_le_two top) (by positivity) (by norm_num)
      _ < (2 ^ 53 - 1 / 2) * 2 ^ (971 : ℤ) := mul_lt_mul_of_pos_right (by norm_num) (by positivity)
      _ = overflow := by rw [overflow_eq, zpow_ofNat]
  | _ =>
    rw [magnitude, parts?, eq]
    simpa using overflow_pos

theorem magnitude_nonneg (x : Float) : 0 ≤ magnitude x := by
  rw [magnitude]
  cases parts? x with
  | none => exact le_rfl
  | some p => exact mul_nonneg (Nat.cast_nonneg _) (by positivity)

/-- To divide by one or more keeps a double finite. -/
theorem isFinite_div (hx : x.isFinite = true) (hy : Scalar.isFactor y = true) (one : 1 ≤ magnitude y) :
    (x / y).isFinite = true :=
  (isFinite_div_iff hx hy).2
    (lt_of_le_of_lt (div_le_self (magnitude_nonneg x) one) (magnitude_lt_overflow x))

end Operations

/-! ## Whole doubles -/

theorem log2_shiftLeft {m : Nat} (pos : 0 < m) (n : Nat) : (m <<< n).log2 = m.log2 + n := by
  rw [Nat.shiftLeft_eq, Nat.log2_eq_iff (by positivity), pow_add, Nat.add_right_comm, pow_add]
  exact ⟨Nat.mul_le_mul_right _ (Nat.log2_self_le pos.ne'),
    Nat.mul_lt_mul_of_pos_right Nat.lt_log2_self (by positivity)⟩

/-- **The double of a natural number is the one nearest to it.** -/
theorem ofNat_eq_nearest {n : Nat} (pos : 0 < n) : UnpackedFloat.ofNat binary64 n = nearest n := by
  -- the mantissa is made as long as the format has it, and only then rounded
  obtain ⟨k, hk⟩ : ∃ k, k = (0 - binary64.targetExponent (totalExponent n 0)).toNat := ⟨_, rfl⟩
  have shifted : UnpackedFloat.ofNat binary64 n
      = roundWithAccuracy binary64 .positive (n <<< k) (0 - k) .exact := by
    have above : compare (n : ℤ) 0 = .gt := compare_gt_iff_gt.2 (by exact_mod_cast pos)
    rw [UnpackedFloat.ofNat, UnpackedFloat.ofInt, UnpackedFloat.normalize, above]
    simp only [UnpackedFloat.round, decreaseExponent, Int.toNat_natCast, ← hk]
  have exponent : (0 - k : ℤ) ≤ binary64.targetExponent (totalExponent (n <<< k / 1) (0 - k)) := by
    rw [Nat.div_one, totalExponent, log2_shiftLeft pos]
    rw [totalExponent] at hk
    rw [targetExponent_eq] at hk ⊢
    omega
  have some_digit : 0 < n <<< k := by
    rw [Nat.shiftLeft_eq]
    positivity
  have round := roundWithAccuracy_eq_nearest some_digit one_pos exponent
  rw [Nat.div_one, Nat.mod_one] at round
  rw [shifted]
  refine Eq.trans round (congrArg nearest ?_)
  rw [Nat.shiftLeft_eq, zero_sub, zpow_neg, zpow_natCast]
  push_cast
  field_simp

theorem isFinite_neg (x : Float) : (-x).isFinite = x.isFinite := by
  rw [isFinite_eq, isFinite_eq, unpack_neg]
  cases x.toModel.unpack <;> rfl

/-- A natural number below the end of the doubles is a finite double, with either sign. -/
theorem isFinite_ofWhole {n : Nat} (high : (n : ℚ) < overflow) (negative : Bool) :
    (ofWhole negative n).isFinite = true := by
  have unsigned : (⟨.ofNat n⟩ : Float).isFinite = true := by
    show (Float.Model.pack (UnpackedFloat.ofNat binary64 n)).unpack.isFinite = true
    rcases Nat.eq_zero_or_pos n with rfl | pos
    · rfl
    · rw [ofNat_eq_nearest pos, ← withSign_nearest]
      exact (isFinite_pack_nearest _ (by exact_mod_cast pos)).2 high
  cases negative with
  | false => exact unsigned
  | true => exact (isFinite_neg _).trans unsigned

/-- **To make a finite double whole keeps it finite**, when at most one is added to its whole part. -/
theorem isFinite_toWhole {pick : Bool → Nat → Nat → Nat → Nat} {x : Float}
    (small : ∀ negative whole cut unit, pick negative whole cut unit ≤ whole + 1) (h : x.isFinite = true) :
    (toWhole pick x).isFinite = true := by
  rw [toWhole]
  split
  · exact h
  · next p eq =>
    split
    · exact h
    · next k _ =>
      have short : p.mantissa < 2 ^ 53 := by
        have format := representable_unpack x.toModel
        obtain ⟨s, ex⟩ | ⟨s, m, e, pos, ex⟩ := finite_cases h
        · rw [parts?, ex] at eq
          obtain rfl := Option.some.inj eq
          norm_num
        · rw [parts?, ex] at eq
          rw [ex] at format
          obtain rfl := Option.some.inj eq
          exact format.1
      refine isFinite_ofWhole ?_ _
      have digits : pick p.negative (p.mantissa / (1 <<< (k + 1))) (p.mantissa % (1 <<< (k + 1)))
          (1 <<< (k + 1)) ≤ 2 ^ 53 :=
        (small _ _ _ _).trans ((Nat.div_le_self _ _).trans_lt short)
      calc _ ≤ ((2 ^ 53 : Nat) : ℚ) := Nat.cast_le.2 digits
        _ = 2 ^ 53 := by rw [Nat.cast_pow, Nat.cast_ofNat]
        _ < 2 ^ 1023 := pow_lt_pow_right₀ one_lt_two (by norm_num)
        _ ≤ overflow := two_pow_le_overflow

theorem isFinite_round {x : Float} (h : x.isFinite = true) : (round x).isFinite = true := by
  refine isFinite_toWhole (fun _ whole cut unit => ?_) h
  split <;> omega

end UnitCalc.Double
