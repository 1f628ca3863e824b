import UnitCalc.Proofs.Double.Finite

/-!
# `Proofs.Double.Numbers` — operations that give numbers for numbers

An infinity is a number, so that leaving the finite doubles is not the same as giving no number. A product or a
quotient by a factor, a root of what is not below zero, a magnitude and a whole double are numbers whenever their
operand is one (`isNaN_mul`, `isNaN_div`, `isNaN_sqrt`, `isNaN_abs`, `isNaN_toWhole`).
-/

namespace UnitCalc.Double

open Float.Model Float.Model.UnpackedFloat Float.Model.Format

/-! ## Packing -/

theorem isNaN_eq (x : Float) : x.isNaN = x.toModel.unpack.isNaN :=
  rfl

theorem isNaN_of_isFinite {u : UnpackedFloat} (h : u.isFinite = true) : u.isNaN = false := by
  cases u <;> first | rfl | cases h

/-- Packing makes no number of what is none, and none of what is a number. -/
theorem isNaN_unpack_pack (u : UnpackedFloat) : (Float.Model.pack u).unpack.isNaN = u.isNaN := by
  cases u with
  | notANumber => rfl
  | infinity s | zero s => cases s <;> rfl
  | finite s m e pos =>
    rcases lt_or_ge 971 e with beyond | within
    · rw [unpack_pack_beyond beyond]
      rfl
    · exact isNaN_of_isFinite (isFinite_unpack_pack.2 within)

theorem isNaN_roundWithAccuracy (s : Sign) (m : Nat) (e : ℤ) (accuracy : Accuracy) :
    (roundWithAccuracy binary64 s m e accuracy).isNaN = false := by
  rw [roundWithAccuracy]
  dsimp only
  split <;> rfl

theorem isNaN_nearest (v : ℚ) : (nearest v).isNaN = false := by
  rw [nearest, carry]
  split
  · rfl
  · split <;> rfl

/-! ## Operations -/

section Operations

variable {x y : Float}

/-- A product of a number by a factor is a number. -/
theorem isNaN_mul (hx : x.isNaN = false) (hy : Scalar.isFactor y = true) : (x * y).isNaN = false := by
  obtain ⟨n, k, hn, ey⟩ := isFactor_iff.1 hy
  show (Float.Model.pack (x.toModel.unpack.mul binary64 y.toModel.unpack)).unpack.isNaN = false
  rw [isNaN_eq] at hx
  rw [isNaN_unpack_pack, ey]
  cases eq : x.toModel.unpack with
  | notANumber =>
    rw [eq] at hx
    cases hx
  | infinity s | zero s => rfl
  | finite s m e pos => exact isNaN_roundWithAccuracy _ _ _ _

/-- A quotient of a number by a factor is a number. -/
theorem isNaN_div (hx : x.isNaN = false) (hy : Scalar.isFactor y = true) : (x / y).isNaN = false := by
  obtain ⟨n, k, hn, ey⟩ := isFactor_iff.1 hy
  show (Float.Model.pack (x.toModel.unpack.div binary64 y.toModel.unpack)).unpack.isNaN = false
  rw [isNaN_eq] at hx
  rw [isNaN_unpack_pack, ey]
  cases eq : x.toModel.unpack with
  | notANumber =>
    rw [eq] at hx
    cases hx
  | infinity s | zero s => rfl
  | finite s m e pos => exact isNaN_roundWithAccuracy _ _ _ _

/-- The root of a number that is not below zero is a number. -/
theorem isNaN_sqrt (hx : x.isNaN = false) (h : ¬ x < 0) : x.sqrt.isNaN = false := by
  show (Float.Model.pack (x.toModel.unpack.sqrt binary64)).unpack.isNaN = false
  replace h : ¬ x.toModel.unpack.lt (.zero .positive) = true := fun below => h (decide_eq_true below)
  rw [isNaN_eq] at hx
  rw [isNaN_unpack_pack]
  cases eq : x.toModel.unpack with
  | notANumber =>
    rw [eq] at hx
    cases hx
  | zero s => rfl
  | infinity s | finite s =>
    rw [eq] at h
    cases s with
    | negative => exact absurd rfl h
    | positive => first | rfl | exact isNaN_roundWithAccuracy _ _ _ _

theorem isNaN_abs (x : Float) : x.abs.isNaN = x.isNaN := by
  rw [isNaN_eq, isNaN_eq, unpack_abs]
  cases x.toModel.unpack <;> rfl

theorem isNaN_neg (x : Float) : (-x).isNaN = x.isNaN := by
  rw [isNaN_eq, isNaN_eq, unpack_neg]
  cases x.toModel.unpack <;> rfl

theorem isNaN_ofWhole (negative : Bool) (n : Nat) : (ofWhole negative n).isNaN = false := by
  have unsigned : (⟨.ofNat n⟩ : Float).isNaN = false := by
    show (Float.Model.pack (UnpackedFloat.ofNat binary64 n)).unpack.isNaN = false
    rw [isNaN_unpack_pack]
    rcases Nat.eq_zero_or_pos n with rfl | pos
    · rfl
    · rw [ofNat_eq_nearest pos]
      exact isNaN_nearest _
  cases negative with
  | false => exact unsigned
  | true => exact (isNaN_neg _).trans unsigned

/-- To make a number whole gives a number. -/
theorem isNaN_toWhole (pick : Bool → Nat → Nat → Nat → Nat) (hx : x.isNaN = false) :
    (toWhole pick x).isNaN = false := by
  rw [toWhole]
  split
  · exact hx
  · split
    · exact hx
    · exact isNaN_ofWhole _ _

end Operations

end UnitCalc.Double
