import UnitCalc.Formula.Apply
import UnitCalc.Proofs.Double.Order

/-!
# `Proofs.Formula.Extremes` — the largest and the smallest argument

`max` and `min` pass over arguments that are not numbers. Each gives the argument that no number among them exceeds
(`apply_extremes`), and the order of the arguments decides no more than the sign of a zero. Where no argument is a
number there is none to give, and what is left is the start of the scan, an infinity that no argument need be
(`not_apply_max_mem`).
-/

namespace UnitCalc

/-! ## The two scans -/

namespace Double

open Float.Model Float.Model.UnpackedFloat

theorem unpack_infinity : infinity.toModel.unpack = .infinity .positive :=
  rfl

theorem unpack_neg_infinity : (-infinity).toModel.unpack = .infinity .negative :=
  rfl

/-- Larger doubles are higher. -/
theorem climbs_gt : Climbs rank (· > ·) where
  iff_lt ha hb := lt_iff_rank ha hb
  number h := Bool.eq_false_iff.2 fun none => not_lt_of_isNaN (.inr none) h

/-- Smaller doubles are higher, when ranks are turned around. -/
theorem climbs_lt : Climbs (fun x => OrderDual.toDual (rank x)) (· < ·) where
  iff_lt ha hb := lt_iff_rank hb ha
  number h := Bool.eq_false_iff.2 fun none => not_lt_of_isNaN (.inl none) h

theorem scanned_maximum (xs : List Float) : Scanned rank (-infinity) xs (maximum xs) :=
  climbs_gt.scanned rfl xs

theorem scanned_minimum (xs : List Float) :
    Scanned (fun x => OrderDual.toDual (rank x)) infinity xs (minimum xs) :=
  climbs_lt.scanned rfl xs

/-- Negative infinity is lowest. -/
theorem rank_neg_infinity_le (x : Float) : rank (-infinity) ≤ rank x := by
  rw [rank, rank, unpack_neg_infinity]
  cases x.toModel.unpack with
  | notANumber => decide
  | infinity s | zero s => cases s <;> decide
  | finite s => exact Prod.Lex.toLex_le_toLex.2 (.inl (by cases s <;> simp [Sign.apply]))

/-- Infinity is highest. -/
theorem rank_le_infinity (x : Float) : rank x ≤ rank infinity := by
  rw [rank, rank, unpack_infinity]
  cases x.toModel.unpack with
  | notANumber => decide
  | infinity s | zero s => cases s <;> decide
  | finite s => exact Prod.Lex.toLex_le_toLex.2 (.inl (by cases s <;> simp [Sign.apply]))

/-- No other double shares the rank of an infinity. -/
theorem eq_infinity_of_place {u : UnpackedFloat} {s : Sign} (h : place u = place (.infinity s)) :
    u = .infinity s := by
  have first : (ofLex (place u)).1 = (ofLex (place (.infinity s))).1 := by rw [h]
  cases u with
  | notANumber => exact absurd first (by cases s <;> decide)
  | zero t => exact absurd first (by cases s <;> cases t <;> decide)
  | finite t => exact absurd first (by cases s <;> cases t <;> simp [place, Sign.apply])
  | infinity t =>
    cases s with
    | negative =>
      cases t with
      | negative => rfl
      | positive => exact absurd first (by decide)
    | positive =>
      cases t with
      | negative => exact absurd first (by decide)
      | positive => rfl

/-- An extreme of a list of doubles: no number of the list lies beyond it, and it is one of them. A list without
    numbers has the default instead. -/
structure IsExtreme (within : Float → Float → Prop) (default : Float) (xs : List Float) (r : Float) : Prop where
  within_of_mem : ∀ x ∈ xs, x.isNaN = false → within x r
  mem_or_default : r ∈ xs ∨ (∀ x ∈ xs, x.isNaN = true) ∧ r = default

/-- **The maximum of a list is the largest of its numbers.** -/
theorem isExtreme_maximum (xs : List Float) : IsExtreme (· ≤ ·) (-infinity) xs (maximum xs) := by
  have scan := scanned_maximum xs
  constructor
  · intro x hx number
    exact (le_iff_rank number scan.number).2 (scan.le x hx number)
  · exact scan.mem_or_eq_start rank_neg_infinity_le fun x _ h => eq_of_unpack_eq (eq_infinity_of_place h)

/-- **The minimum of a list is the smallest of its numbers.** -/
theorem isExtreme_minimum (xs : List Float) : IsExtreme (· ≥ ·) infinity xs (minimum xs) := by
  have scan := scanned_minimum xs
  constructor
  · intro x hx number
    exact (le_iff_rank scan.number number).2 (scan.le x hx number)
  · exact scan.mem_or_eq_start rank_le_infinity fun x _ h => eq_of_unpack_eq (eq_infinity_of_place h)

/-- A scan starts from a number, and what replaces it is one. -/
theorem isNaN_maximum (xs : List Float) : (maximum xs).isNaN = false :=
  (scanned_maximum xs).number

theorem isNaN_minimum (xs : List Float) : (minimum xs).isNaN = false :=
  (scanned_minimum xs).number

variable {xs ys : List Float}

/-- **A maximum does not depend on the order**, but for the sign of a zero. -/
theorem maximum_perm (order : xs.Perm ys) : (maximum xs == maximum ys) = true := by
  have scan := scanned_maximum xs
  have scan' := scanned_maximum ys
  exact (beq_iff_rank scan.number scan'.number).2 (scan.height_eq scan' order)

theorem minimum_perm (order : xs.Perm ys) : (minimum xs == minimum ys) = true := by
  have scan := scanned_minimum xs
  have scan' := scanned_minimum ys
  exact (beq_iff_rank scan.number scan'.number).2 (scan.height_eq scan' order)

end Double

/-! ## The two functions -/

namespace Formula

open Double

/-- With two arguments or more, `max` has a value. -/
theorem apply_max {policy : DivisionByZero} {xs : List Float} (two : 2 ≤ xs.length) :
    Func.max.apply policy xs = .ok (maximum xs) := by
  match xs, two with
  | _ :: _ :: _, _ => rfl

theorem apply_min {policy : DivisionByZero} {xs : List Float} (two : 2 ≤ xs.length) :
    Func.min.apply policy xs = .ok (minimum xs) := by
  match xs, two with
  | _ :: _ :: _, _ => rfl

/-- **`max` and `min` give one of their arguments**, which no number among them exceeds, unless none of them is a
number. In another order the arguments give an equal value. -/
theorem apply_extremes (policy : DivisionByZero) {xs : List Float} (two : 2 ≤ xs.length) :
    (∃ r, Func.max.apply policy xs = .ok r ∧ IsExtreme (· ≤ ·) (-infinity) xs r
        ∧ ∀ ys, xs.Perm ys → ∃ s, Func.max.apply policy ys = .ok s ∧ (r == s) = true)
      ∧ ∃ r, Func.min.apply policy xs = .ok r ∧ IsExtreme (· ≥ ·) infinity xs r
        ∧ ∀ ys, xs.Perm ys → ∃ s, Func.min.apply policy ys = .ok s ∧ (r == s) = true := by
  constructor
  · refine ⟨_, apply_max two, isExtreme_maximum xs, fun ys order => ?_⟩
    exact ⟨_, apply_max (order.length_eq ▸ two), maximum_perm order⟩
  · refine ⟨_, apply_min two, isExtreme_minimum xs, fun ys order => ?_⟩
    exact ⟨_, apply_min (order.length_eq ▸ two), minimum_perm order⟩

/-- The larger of the two zeros is the one that comes first, and what is not a number is passed over. -/
theorem apply_extremes_zeros :
    2 ≤ [notANumber, 0, -0].length
      ∧ IsExtreme (· ≤ ·) (-infinity) [notANumber, 0, -0] 0
      ∧ ∃ s, Func.max.apply .error [-0, 0, notANumber] = .ok s ∧ ((0 : Float) == s) = true := by
  have two : 2 ≤ [notANumber, 0, -0].length := by decide
  obtain ⟨⟨r, value, extreme, orders⟩, -⟩ := apply_extremes .error two
  obtain rfl : 0 = r := Except.ok.inj (Eq.trans (by decide) value)
  exact ⟨two, extreme, orders _ (List.reverse_perm _).symm⟩

/-- The maximum of arguments that are no numbers is none of them. -/
theorem not_apply_max_mem :
    ¬ ∀ policy (xs : List Float), 2 ≤ xs.length → ∃ r, Func.max.apply policy xs = .ok r ∧ r ∈ xs := by
  intro always
  obtain ⟨r, value, mem⟩ := always .error [notANumber, notANumber] (by decide)
  have start : Func.max.apply .error [notANumber, notANumber] = .ok (-infinity) := by decide
  obtain rfl : -infinity = r := Except.ok.inj (start.symm.trans value)
  have same : -infinity = notANumber := by simpa using mem
  exact absurd same (by decide)

end Formula

end UnitCalc
