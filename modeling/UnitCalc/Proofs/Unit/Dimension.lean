import UnitCalc.Unit.Conversion

/-!
# `Proofs.Unit.Dimension` — which dimensions are compared

Two dimensions are the same if each part of the one is a rearrangement of that part of the other. The test
strikes the base dimensions of one list from the other, and agrees with sorting both lists (`sortedAlike_eq`).

Values are converted only between commensurable dimensions: two temperatures, or the same dimension. A
conversion fails for the dimensions exactly if they are not commensurable, and the order in which base
dimensions are listed makes no difference to it (`convert_dimensions`).
-/

namespace UnitCalc

open Formula

namespace Dimension

variable {a b c d d' : Dimension}

/-! ## The same dimension -/

theorem same_iff : a.same b = true ↔ a.numerator.Perm b.numerator ∧ a.denominator.Perm b.denominator := by
  rw [same, Bool.and_eq_true, List.isPerm_iff, List.isPerm_iff]

theorem same_refl (a : Dimension) : a.same a = true :=
  same_iff.2 ⟨.refl _, .refl _⟩

theorem same_symm (h : a.same b = true) : b.same a = true :=
  same_iff.2 ⟨(same_iff.1 h).1.symm, (same_iff.1 h).2.symm⟩

theorem same_trans (hab : a.same b = true) (hbc : b.same c = true) : a.same c = true :=
  same_iff.2 ⟨(same_iff.1 hab).1.trans (same_iff.1 hbc).1, (same_iff.1 hab).2.trans (same_iff.1 hbc).2⟩

/-- The same dimensions may stand for each other. -/
theorem same_congr (h : d.same a = true) (h' : d'.same b = true) : d.same d' = a.same b := by
  rw [Bool.eq_iff_iff]
  constructor
  · intro same
    exact same_trans (same_symm h) (same_trans same h')
  · intro same
    exact same_trans h (same_trans same (same_symm h'))

theorem isTemperature_iff : a.isTemperature = true ↔ DimensionId.temperature ∈ a.numerator :=
  List.contains_iff_mem

theorem isTemperature_of_same (h : a.same b = true) : a.isTemperature = b.isTemperature := by
  rw [Bool.eq_iff_iff, isTemperature_iff, isTemperature_iff]
  exact (same_iff.1 h).1.mem_iff

theorem not_isTemperature_of_same (h : a.same b = true)
    (not_both : ¬ (a.isTemperature && b.isTemperature) = true) :
    a.isTemperature = false ∧ b.isTemperature = false := by
  rw [← isTemperature_of_same h] at not_both ⊢
  simpa using not_both

/-! ## Sorting -/

/-- Two lists are of one length, and equal once they are sorted. -/
def sortedAlike (l m : List DimensionId) : Bool :=
  l.length == m.length && l.mergeSort == m.mergeSort

theorem pairwise_mergeSort (l : List DimensionId) : l.mergeSort.Pairwise (· ≤ ·) := by
  have sorted : l.mergeSort.Pairwise fun x y => decide (x ≤ y) = true := by
    refine List.pairwise_mergeSort ?_ ?_ l
    · intro x y z hxy hyz
      exact decide_eq_true (UInt32.le_trans (of_decide_eq_true hxy) (of_decide_eq_true hyz))
    · intro x y
      simpa using UInt32.le_total x y
  exact sorted.imp of_decide_eq_true

theorem mergeSort_eq_iff {l m : List DimensionId} : l.mergeSort = m.mergeSort ↔ l.Perm m := by
  constructor
  · intro equal
    exact (List.mergeSort_perm l _).symm.trans (equal ▸ List.mergeSort_perm m _)
  · intro perm
    -- two sorted lists with the same elements have nothing left in which to differ
    refine List.Perm.eq_of_pairwise (fun x y _ _ => UInt32.le_antisymm) (pairwise_mergeSort l)
      (pairwise_mergeSort m) ?_
    exact (List.mergeSort_perm l _).trans (perm.trans (List.mergeSort_perm m _).symm)

/-- **Lists are rearrangements of each other if they are alike once they are sorted.** -/
theorem sortedAlike_eq (l m : List DimensionId) : sortedAlike l m = l.isPerm m := by
  rw [Bool.eq_iff_iff, sortedAlike, Bool.and_eq_true, beq_iff_eq, beq_iff_eq, List.isPerm_iff,
    mergeSort_eq_iff]
  exact ⟨And.right, fun perm => ⟨perm.length_eq, perm⟩⟩

/-! ## Commensurable dimensions -/

/-- Values are converted between the two: both are temperatures, or they are the same. -/
def Commensurable (a b : Dimension) : Prop :=
  a.isTemperature = true ∧ b.isTemperature = true ∨ a.same b = true

instance (a b : Dimension) : Decidable (Commensurable a b) :=
  inferInstanceAs (Decidable (_ ∧ _ ∨ _))

theorem Commensurable.refl (a : Dimension) : Commensurable a a :=
  .inr (same_refl a)

theorem Commensurable.symm (h : Commensurable a b) : Commensurable b a :=
  h.imp And.symm same_symm

/-- The same dimensions are both temperatures or both not, so that the two grounds do not mix. -/
theorem Commensurable.trans (hab : Commensurable a b) (hbc : Commensurable b c) : Commensurable a c := by
  rcases hab with ⟨ta, tb⟩ | hab <;> rcases hbc with ⟨tb', tc⟩ | hbc
  · exact .inl ⟨ta, tc⟩
  · exact .inl ⟨ta, (isTemperature_of_same hbc).symm.trans tb⟩
  · exact .inl ⟨(isTemperature_of_same hab).trans tb', tc⟩
  · exact .inr (same_trans hab hbc)

theorem not_commensurable_iff : ¬ Commensurable a b ↔
    ¬ (DimensionId.temperature ∈ a.numerator ∧ DimensionId.temperature ∈ b.numerator)
      ∧ (¬ a.numerator.Perm b.numerator ∨ ¬ a.denominator.Perm b.denominator) := by
  rw [Commensurable, not_or, isTemperature_iff, isTemperature_iff, same_iff]
  exact and_congr_right fun _ => Decidable.not_and_iff_not_or_not

end Dimension

namespace Measure

/-! ## Conversion -/

variable {α : Type} {value : α} {run : String → α → Except FormulaError α} {s t : String}

theorem applyFormula_ne_mismatch {formula : String} :
    applyFormula run formula value ≠ .error (.dimensionMismatch s t) := by
  rw [applyFormula]
  cases run formula value <;> simp

variable [Scalar α] {a b : Measure α}

theorem convertTemperature_ne_mismatch {source target : String} :
    convertTemperature value source target ≠ .error (.dimensionMismatch s t) := by
  rw [convertTemperature, scaleOf, scaleOf]
  intro failed
  cases first : Scale.ofSymbol? source with
  | none =>
    rw [first] at failed
    cases failed
  | some =>
    cases second : Scale.ofSymbol? target with
    | none =>
      rw [first, second] at failed
      cases failed
    | some =>
      rw [first, second] at failed
      cases failed

theorem checkedFactor_ne_mismatch : a.checkedFactor ≠ .error (.dimensionMismatch s t) := by
  rw [checkedFactor]
  split <;> simp

theorem convertWith_of_not_commensurable (h : ¬ a.dimension.Commensurable b.dimension) :
    convertWith run value a b = .error (.dimensionMismatch a.symbol b.symbol) := by
  obtain ⟨not_both, differ⟩ := not_or.1 h
  rw [convertWith, if_neg (by simpa using not_both), if_pos (by simpa using differ)]

/-- What follows the comparison of the dimensions does not fail for them. -/
theorem convertWith_ne_mismatch (h : a.dimension.Commensurable b.dimension) :
    convertWith run value a b ≠ .error (.dimensionMismatch s t) := by
  rw [convertWith]
  split
  · exact convertTemperature_ne_mismatch
  · next not_both =>
    have same : a.dimension.same b.dimension = true := h.resolve_left (by simpa using not_both)
    rw [same]
    cases a.formula with
    | some formula => exact applyFormula_ne_mismatch
    | none =>
      cases source : a.checkedFactor with
      | error e => exact fun failed => checkedFactor_ne_mismatch (source.trans failed)
      | ok factor =>
        cases b.formula with
        | some formula => exact applyFormula_ne_mismatch
        | none =>
          cases target : b.checkedFactor with
          | error e => exact fun failed => checkedFactor_ne_mismatch (target.trans failed)
          | ok factor' => exact fun converted => by cases converted

/-- Conversion looks at the dimensions only to compare them. -/
theorem convertWith_same {d d' : Dimension} (h : d.same a.dimension = true)
    (h' : d'.same b.dimension = true) :
    convertWith run value { a with dimension := d } { b with dimension := d' } = convertWith run value a b := by
  rw [convertWith, convertWith, ← Dimension.isTemperature_of_same h, ← Dimension.isTemperature_of_same h',
    ← Dimension.same_congr h h']
  rfl

/-- **Dimensions are compared as multisets, and in no other way.** A conversion fails for the dimensions, naming
the two units, exactly if not both are temperatures and one of the parts of the one dimension is no
rearrangement of that part of the other. To rearrange the parts changes nothing. And to compare them agrees with
sorting them. -/
theorem convert_dimensions (settings : Settings) (value : Float) (a b : Measure Float) :
    (∀ s t, convert settings value a b = .error (.dimensionMismatch s t) ↔
      (s = a.symbol ∧ t = b.symbol)
        ∧ ¬ (DimensionId.temperature ∈ a.dimension.numerator ∧ DimensionId.temperature ∈ b.dimension.numerator)
        ∧ (¬ a.dimension.numerator.Perm b.dimension.numerator
          ∨ ¬ a.dimension.denominator.Perm b.dimension.denominator))
      ∧ (∀ d d' : Dimension,
          d.numerator.Perm a.dimension.numerator → d.denominator.Perm a.dimension.denominator →
          d'.numerator.Perm b.dimension.numerator → d'.denominator.Perm b.dimension.denominator →
          convert settings value { a with dimension := d } { b with dimension := d' }
            = convert settings value a b)
      ∧ a.dimension.same b.dimension
          = (Dimension.sortedAlike a.dimension.numerator b.dimension.numerator
            && Dimension.sortedAlike a.dimension.denominator b.dimension.denominator) := by
  refine ⟨fun s t => ?_, fun d d' hn hd hn' hd' => ?_, ?_⟩
  · rw [← Dimension.not_commensurable_iff]
    by_cases joint : a.dimension.Commensurable b.dimension
    · exact iff_of_false (convertWith_ne_mismatch joint) fun named => named.2 joint
    · rw [convert, convertWith_of_not_commensurable joint]
      simp [joint, eq_comm]
  · exact convertWith_same (Dimension.same_iff.2 ⟨hn, hd⟩) (Dimension.same_iff.2 ⟨hn', hd'⟩)
  · rw [Dimension.same, Dimension.sortedAlike_eq, Dimension.sortedAlike_eq]

/-- A unit of some base dimensions per time. -/
def perTime (symbol : String) (numerator : List DimensionId) : Measure Float :=
  ⟨symbol, 1, ⟨numerator, [DimensionId.time]⟩, none⟩

open DimensionId in
/-- Length by mass is mass by length, and length by length is not. -/
theorem convert_dimensions_product :
    [length, mass].Perm [mass, length]
      ∧ convert {} 5 (perTime "kg·m/s" [length, mass]) (perTime "kg·m/s" [mass, length])
        = convert {} 5 (perTime "kg·m/s" [mass, length]) (perTime "kg·m/s" [mass, length])
      ∧ convert {} 5 (perTime "kg·m/s" [mass, length]) (perTime "m²/s" [length, length])
        = .error (.dimensionMismatch "kg·m/s" "m²/s") := by
  have swapped : [length, mass].Perm [mass, length] := .swap _ _ _
  refine ⟨swapped, ?_, ?_⟩
  · exact (convert_dimensions {} 5 (perTime "kg·m/s" [mass, length]) (perTime "kg·m/s" [mass, length])).2.1
      ⟨[length, mass], [time]⟩ ⟨[mass, length], [time]⟩ swapped (.refl _) (.refl _) (.refl _)
  · exact ((convert_dimensions {} 5 _ _).1 _ _).2 ⟨⟨rfl, rfl⟩, by decide, .inl (by decide)⟩

end Measure

end UnitCalc
