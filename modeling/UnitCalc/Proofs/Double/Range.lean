import UnitCalc.Proofs.Double.Operations
import UnitCalc.Unit.Temperature

/-!
# `Proofs.Double.Range` — where a product leaves the doubles

A product of two positive doubles is rounded from a positive number, and still it may be no positive double: the
exact product may lie so close to zero, or so far out, that zero or infinity is nearest. The two ends are known
exactly, so that the exact product tells which of the three happens (`isFactor_mul`, `mul_of_le_underflow`,
`mul_of_overflow_le`).
-/

namespace UnitCalc.Double

open Float.Model Float.Model.UnpackedFloat Float.Model.Format Decimal

/-! ## Between the ends -/

theorem le_quantum (v : ℚ) : -1074 ≤ quantum v :=
  le_max_right _ _

theorem quantum_le {v : ℚ} (pos : 0 < v) (high : v < overflow) : quantum v ≤ 971 := by
  have small : v < 2 ^ 1024 := high.trans (sub_lt_self _ (by positivity))
  have log : Int.log 2 v < 1024 :=
    (Int.lt_zpow_iff_log_lt one_lt_two pos).1 (by rwa [Nat.cast_ofNat, zpow_ofNat])
  unfold quantum
  omega

/-- Beyond half of the least double, some digit is left. -/
theorem roundEven_pos {v : ℚ} (low : underflow < v) : 0 < roundEven (v / 2 ^ quantum v) := by
  have pos : 0 < v := underflow_pos.trans low
  rcases (le_quantum v).lt_or_eq with above | least
  · exact lt_of_lt_of_le (by positivity) (roundEven_full pos above)
  · rwa [Nat.pos_iff_ne_zero, Ne, roundEven_eq_zero_iff (by positivity), not_le, ← least,
      lt_div_iff₀ (by positivity), ← underflow_eq]

/-- **Between the ends, the nearest double is positive and finite.** -/
theorem exists_nearest {v : ℚ} (low : underflow < v) (high : v < overflow) :
    ∃ m e, ∃ pos : 0 < m, nearest v = .finite .positive m e pos
      ∧ Representable (.finite .positive m e pos) := by
  have pos : 0 < v := underflow_pos.trans low
  have some_digit := roundEven_pos low
  have top := quantum_le pos high
  have least := le_quantum v
  unfold nearest carry
  rw [dif_neg some_digit.ne']
  split
  · next short =>
    have full : 2 ^ 52 ≤ roundEven (v / 2 ^ quantum v) ∨ quantum v = -1074 :=
      least.lt_or_eq.imp (roundEven_full pos) Eq.symm
    exact ⟨_, _, some_digit, rfl, short, full, least, top⟩
  · next long =>
    -- the mantissa grows by a digit, for which the largest exponent leaves no room
    have room : quantum v ≠ 971 := by
      intro unit
      refine long ((roundEven_lt_iff (by positivity) (by norm_num)).2 ?_)
      rw [unit, div_lt_iff₀ (by positivity)]
      rw [overflow_eq] at high
      exact_mod_cast high
    exact ⟨_, _, by positivity, rfl, by norm_num, .inl le_rfl, by omega, by omega⟩

/-! ## Products of positive doubles -/

/-- The number that a finite double is, without its sign. -/
def magnitude (x : Float) : ℚ :=
  match parts? x with
  | some p => p.mantissa * 2 ^ p.exponent
  | none => 0

theorem magnitude_eq {x : Float} {s : Sign} {m : Nat} {e : ℤ} {pos : 0 < m}
    (h : x.toModel.unpack = .finite s m e pos) : magnitude x = m * 2 ^ e := by
  rw [magnitude, parts?, h]

/-- A factor is a positive finite number. -/
theorem isFactor_iff {x : Float} :
    Scalar.isFactor x = true ↔ ∃ m e, ∃ pos : 0 < m, x.toModel.unpack = .finite .positive m e pos := by
  have meaning : Scalar.isFactor x = true ↔ x.toModel.unpack.isFinite = true
      ∧ (UnpackedFloat.zero .positive).lt x.toModel.unpack = true := by
    show (x.isFinite && decide (0 < x)) = true ↔ _
    rw [Bool.and_eq_true, decide_eq_true_iff]
    exact and_congr_right' ⟨of_decide_eq_true, decide_eq_true⟩
  rw [meaning]
  cases x.toModel.unpack with
  | finite s m e pos =>
    cases s <;> simp [pos, UnpackedFloat.isFinite, UnpackedFloat.lt, UnpackedFloat.compare]
  | zero s => cases s <;> simp [UnpackedFloat.lt, UnpackedFloat.compare]
  | _ => simp [UnpackedFloat.isFinite]

variable {x y : Float}

theorem magnitude_pos (h : Scalar.isFactor x = true) : 0 < magnitude x := by
  obtain ⟨m, e, pos, eq⟩ := isFactor_iff.1 h
  rw [magnitude_eq eq]
  positivity

/-- The product of two factors is the double nearest to the exact product. -/
theorem mul_eq_pack (hx : Scalar.isFactor x = true) (hy : Scalar.isFactor y = true) :
    x * y = ⟨Float.Model.pack (nearest (magnitude x * magnitude y))⟩ := by
  obtain ⟨m, e, hm, ex⟩ := isFactor_iff.1 hx
  obtain ⟨n, k, hn, ey⟩ := isFactor_iff.1 hy
  have format := representable_unpack x.toModel
  have format' := representable_unpack y.toModel
  rw [ex] at format
  rw [ey] at format'
  rw [magnitude_eq ex, magnitude_eq ey, ← mul_eq_nearest format format', ← ex, ← ey]
  rfl

/-- **A product between the ends is a factor again.** -/
theorem isFactor_mul (hx : Scalar.isFactor x = true) (hy : Scalar.isFactor y = true)
    (low : underflow < magnitude x * magnitude y) (high : magnitude x * magnitude y < overflow) :
    Scalar.isFactor (x * y) = true := by
  obtain ⟨m, e, pos, round, format⟩ := exists_nearest low high
  rw [mul_eq_pack hx hy, round]
  exact isFactor_iff.2 ⟨m, e, pos, unpack_pack format⟩

/-- A product too close to zero is zero. -/
theorem mul_of_le_underflow (hx : Scalar.isFactor x = true) (hy : Scalar.isFactor y = true)
    (h : magnitude x * magnitude y ≤ underflow) : x * y = 0 := by
  rw [mul_eq_pack hx hy, nearest_of_le (mul_pos (magnitude_pos hx) (magnitude_pos hy)) h]
  decide

/-- A product too far out is infinity. -/
theorem mul_of_overflow_le (hx : Scalar.isFactor x = true) (hy : Scalar.isFactor y = true)
    (h : overflow ≤ magnitude x * magnitude y) : x * y = infinity := by
  have beyond : (⟨Float.Model.pack (nearest (magnitude x * magnitude y))⟩ : Float)
      = ⟨Float.Model.pack (.infinity .positive)⟩ := by
    simp only [Float.Model.pack, pack_nearest_of_le h]
    rfl
  rw [mul_eq_pack hx hy, beyond]
  decide

end UnitCalc.Double
