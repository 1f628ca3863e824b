import Mathlib.Data.Prod.Lex
import Mathlib.Order.OrderDual
import UnitCalc.Double.Arithmetic
import UnitCalc.Proofs.Double.Packing

/-!
# `Proofs.Double.Order` — the order of doubles, and the extremes of a list

Doubles are compared by their signs, exponents and mantissas, in this order. Written as three numbers these are
the `rank` of a double, and all comparisons are comparisons of ranks (`lt_iff_rank`, `le_iff_rank`,
`beq_iff_rank`). Not-a-number has no rank and compares with nothing. The two zeros share a rank, so that equal
doubles need not be the same.

The largest and the smallest of a list are found by one scan, which keeps one of two operands at every step
(`pick`). It starts from the double of least rank, and what it ends with is one of the list, unless the list
holds no number at all (`Scanned.mem_or_eq_start`). The order of the list decides no more than which of two equal
doubles is kept (`Scanned.height_eq`).
-/

namespace UnitCalc.Double

open Float.Model Float.Model.UnpackedFloat

/-! ## Ranks -/

/-- Sign, exponent and mantissa as numbers that are compared one after another. -/
def place : UnpackedFloat → ℤ ×ₗ ℤ ×ₗ ℤ
  | .infinity s => toLex (s.apply 2, toLex (0, 0))
  | .finite s m e _ => toLex (s.apply 1, toLex (s.apply e, s.apply m))
  | .zero _ | .notANumber => toLex (0, toLex (0, 0))

/-- A pair is compared by its first parts, and where these are equal by its second ones. -/
theorem compare_toLex {α β : Type} [LinearOrder α] [LinearOrder β] (a c : α) (b d : β) :
    compare (toLex (a, b)) (toLex (c, d)) = (compare a c).then (compare b d) :=
  rfl

theorem compare_neg (a b : ℤ) : compare (-a) (-b) = (compare a b).swap := by
  rw [Int.compare_swap]
  simp only [compare, compareOfLessAndEq, neg_lt_neg_iff, neg_inj, eq_comm]

theorem compare_natCast (m n : Nat) : compare (m : ℤ) n = compare m n := by
  simp only [compare, compareOfLessAndEq, Nat.cast_lt, Nat.cast_inj]

/-- **Numbers are compared by their places.** -/
theorem compare_eq_place {u v : UnpackedFloat} (hu : u.isNaN = false) (hv : v.isNaN = false) :
    u.compare v = some (compare (place u) (place v)) := by
  cases u with
  | notANumber => cases hu
  | infinity s | zero s =>
    cases v with
    | notANumber => cases hv
    | infinity t | zero t | finite t => cases s <;> cases t <;> rfl
  | finite s m e =>
    cases v with
    | notANumber => cases hv
    | infinity t | zero t => cases s <;> cases t <;> rfl
    | finite t n k =>
      -- two negative numbers are compared the other way round, as their negated parts are
      cases s <;> cases t
      · simp [UnpackedFloat.compare, place, compare_toLex, Sign.apply, compare_neg, compare_natCast,
          Ordering.swap_then]
      · rfl
      · rfl
      · simp [UnpackedFloat.compare, place, compare_toLex, Sign.apply, compare_natCast]

/-- The rank of a double among the doubles. -/
def rank (x : Float) : ℤ ×ₗ ℤ ×ₗ ℤ :=
  place x.toModel.unpack

section Comparisons

variable {x y : Float}

theorem lt_iff_rank (hx : x.isNaN = false) (hy : y.isNaN = false) : x < y ↔ rank x < rank y := by
  have meaning : x < y ↔ x.toModel.unpack.lt y.toModel.unpack = true := ⟨of_decide_eq_true, decide_eq_true⟩
  rw [meaning, UnpackedFloat.lt, compare_eq_place hx hy, rank, rank]
  simp [compare_lt_iff_lt]

theorem le_iff_rank (hx : x.isNaN = false) (hy : y.isNaN = false) : x ≤ y ↔ rank x ≤ rank y := by
  have meaning : x ≤ y ↔ x.toModel.unpack.le y.toModel.unpack = true := ⟨of_decide_eq_true, decide_eq_true⟩
  rw [meaning, UnpackedFloat.le, compare_eq_place hx hy, rank, rank]
  simp [Ordering.isLE_iff_ne_gt, compare_le_iff_le]

theorem beq_iff_rank (hx : x.isNaN = false) (hy : y.isNaN = false) : (x == y) = true ↔ rank x = rank y := by
  show x.toModel.unpack.beq y.toModel.unpack = true ↔ _
  rw [UnpackedFloat.beq, compare_eq_place hx hy, rank, rank]
  simp [compare_eq_iff_eq]

theorem not_le_iff (hx : x.isNaN = false) (hy : y.isNaN = false) : ¬ x ≤ y ↔ y < x := by
  rw [le_iff_rank hx hy, lt_iff_rank hy hx, not_le]

/-- Not-a-number compares with nothing. -/
theorem compare_of_isNaN {u v : UnpackedFloat} (h : u.isNaN = true ∨ v.isNaN = true) : u.compare v = none := by
  cases u with
  | notANumber => rfl
  | infinity s | zero s | finite s =>
    cases v with
    | notANumber => cases s <;> rfl
    | _ => rcases h with h | h <;> cases h

theorem not_lt_of_isNaN (h : x.isNaN = true ∨ y.isNaN = true) : ¬ x < y := by
  intro less
  replace less : x.toModel.unpack.lt y.toModel.unpack = true := of_decide_eq_true less
  rw [UnpackedFloat.lt, compare_of_isNaN h] at less
  cases less

end Comparisons

/-! ## Scans -/

/-- One of two operands: the second one when it beats the first, or when the first is not a number. -/
def pick (beats : Float → Float → Prop) [DecidableRel beats] (a b : Float) : Float :=
  if a.isNaN then b else if beats b a then b else a

variable {β : Type} [LinearOrder β] {height : Float → β} {beats : Float → Float → Prop} [DecidableRel beats]
  {start r s x : Float} {xs ys : List Float}

/-- A number beats the numbers that it is higher than, and what is not a number beats nothing. -/
structure Climbs (height : Float → β) (beats : Float → Float → Prop) : Prop where
  iff_lt {a b : Float} : a.isNaN = false → b.isNaN = false → (beats b a ↔ height a < height b)
  number {a b : Float} : beats b a → b.isNaN = false

/-- A scan that starts at the number `start` ends at the number `r`: one of the list or the start itself, and as
    high as any of them. -/
structure Scanned (height : Float → β) (start : Float) (xs : List Float) (r : Float) : Prop where
  number : r.isNaN = false
  start_le : height start ≤ height r
  le : ∀ x ∈ xs, x.isNaN = false → height x ≤ height r
  mem : r = start ∨ r ∈ xs

/-- One step of a scan. -/
theorem Climbs.scanned_pick (climbs : Climbs height beats) (number : start.isNaN = false) (x : Float) :
    Scanned height start [x] (pick beats start x) := by
  rw [pick, if_neg (Bool.eq_false_iff.1 number)]
  by_cases wins : beats x start
  · rw [if_pos wins]
    have number' := climbs.number wins
    refine ⟨number', ((climbs.iff_lt number number').1 wins).le, ?_, .inr List.mem_cons_self⟩
    intro y hy _
    rw [List.mem_singleton.1 hy]
  · rw [if_neg wins]
    refine ⟨number, le_rfl, ?_, .inl rfl⟩
    intro y hy number'
    rw [List.mem_singleton.1 hy] at number' ⊢
    exact not_lt.1 fun less => wins ((climbs.iff_lt number number').2 less)

/-- A scan goes on where another one has ended. -/
theorem Scanned.append (first : Scanned height start xs r) (second : Scanned height r ys s) :
    Scanned height start (xs ++ ys) s := by
  refine ⟨second.number, first.start_le.trans second.start_le, ?_, ?_⟩
  · intro x hx number
    rcases List.mem_append.1 hx with hx | hx
    · exact (first.le x hx number).trans second.start_le
    · exact second.le x hx number
  · rcases second.mem with rfl | mem
    · exact first.mem.imp_right (List.mem_append_left ys)
    · exact .inr (List.mem_append_right xs mem)

/-- **A whole scan.** -/
theorem Climbs.scanned (climbs : Climbs height beats) (number : start.isNaN = false) (xs : List Float) :
    Scanned height start xs (xs.foldl (pick beats) start) := by
  induction xs generalizing start with
  | nil => exact ⟨number, le_rfl, List.forall_mem_nil _, .inl rfl⟩
  | cons x xs ih =>
    have first := climbs.scanned_pick number x
    exact first.append (ih first.number)

theorem Scanned.le_of_subset (h : Scanned height start xs r) (h' : Scanned height start ys s) (sub : xs ⊆ ys) :
    height r ≤ height s := by
  rcases h.mem with rfl | mem
  · exact h'.start_le
  · exact h'.le r (sub mem) h.number

/-- **Scans of the same doubles end equally high**, in whatever order they are visited. -/
theorem Scanned.height_eq (h : Scanned height start xs r) (h' : Scanned height start ys s)
    (order : xs.Perm ys) : height r = height s :=
  le_antisymm (h.le_of_subset h' order.subset) (h'.le_of_subset h order.symm.subset)

/-- **Only a list without numbers gives back the start of the scan**, where nothing is lower than the start. -/
theorem Scanned.mem_or_eq_start (h : Scanned height start xs r) (least : ∀ x, height start ≤ height x)
    (only : ∀ x, x.isNaN = false → height x = height start → x = start) :
    r ∈ xs ∨ (∀ x ∈ xs, x.isNaN = true) ∧ r = start := by
  rcases h.mem with rfl | mem
  · by_cases none : ∀ x ∈ xs, x.isNaN = true
    · exact .inr ⟨none, rfl⟩
    · -- a number of the list is as low as the start, so it is the start
      simp only [not_forall, Bool.not_eq_true] at none
      obtain ⟨x, hx, number⟩ := none
      have same := only x number (le_antisymm (h.le x hx number) (least x))
      exact .inl (same ▸ hx)
  · exact .inl mem

end UnitCalc.Double
