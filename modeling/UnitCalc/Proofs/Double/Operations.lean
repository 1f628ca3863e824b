import UnitCalc.Proofs.Decimal.ReadBack

/-!
# `Proofs.Double.Operations` — operations that change nothing

A product and a quotient of doubles are rounded once, from the exact result (`mul_eq_nearest`,
`div_eq_nearest`). Where the exact result is a double, nothing is rounded: every double times one and every
double by one is that double again (`mul_one_eq`, `div_one_eq`), the two zeros, the infinities and
not-a-number included.

Sums need no rounding for what is shown of them. A difference is the sum with the negation (`sub_eq_add`), and
to add a zero changes no more than the sign of a zero (`alike_add_zero`).
-/

namespace UnitCalc.Double

open Float.Model Float.Model.UnpackedFloat Float.Model.Format

/-! ## Signs -/

/-- The same number with another sign. -/
def withSign (s : Sign) : UnpackedFloat → UnpackedFloat
  | .notANumber => .notANumber
  | .infinity _ => .infinity s
  | .zero _ => .zero s
  | .finite _ m e pos => .finite s m e pos

/-- Core rounds the magnitude, and the sign stays what it is. -/
theorem roundWithAccuracy_withSign (s : Sign) (m : Nat) (e : ℤ) (accuracy : Accuracy) :
    roundWithAccuracy binary64 s m e accuracy
      = withSign s (roundWithAccuracy binary64 .positive m e accuracy) := by
  rw [roundWithAccuracy, roundWithAccuracy]
  dsimp only
  split <;> rfl

theorem roundWithAccuracy_of_positive {m m' : Nat} {e e' : ℤ} {accuracy : Accuracy} {pos : 0 < m'}
    (h : roundWithAccuracy binary64 .positive m e accuracy = .finite .positive m' e' pos) (s : Sign) :
    roundWithAccuracy binary64 s m e accuracy = .finite s m' e' pos := by
  rw [roundWithAccuracy_withSign, h]
  rfl

theorem mul_positive (s : Sign) : s * .positive = s := by
  cases s <;> rfl

theorem div_positive (s : Sign) : s / .positive = s := by
  cases s <;> rfl

/-! ## Products and quotients -/

/-- **A product is rounded once.** Doubles have so many digits that the product of their mantissas has more
    than are kept, or the exponent of the product lies below the least one. -/
theorem mul_eq_nearest {m n : Nat} {e k : ℤ} {hm : 0 < m} {hn : 0 < n}
    (h : Representable (.finite .positive m e hm)) (h' : Representable (.finite .positive n k hn)) :
    UnpackedFloat.mul binary64 (.finite .positive m e hm) (.finite .positive n k hn)
      = nearest (m * 2 ^ e * (n * 2 ^ k)) := by
  have pos : 0 < m * n := Nat.mul_pos hm hn
  have exponent : e + k ≤ binary64.targetExponent (totalExponent (m * n / 1) (e + k)) := by
    rw [targetExponent_eq, totalExponent, Nat.div_one]
    rcases h.2.1 with full | least
    · have digits : 52 ≤ (m * n).log2 :=
        (Nat.le_log2 pos.ne').2 (full.trans (Nat.le_mul_of_pos_right m hn))
      omega
    · rcases h'.2.1 with full | least'
      · have digits : 52 ≤ (m * n).log2 :=
          (Nat.le_log2 pos.ne').2 (full.trans (Nat.le_mul_of_pos_left n hm))
        omega
      · omega
  have round := roundWithAccuracy_eq_nearest pos one_pos exponent
  rw [Nat.div_one, Nat.mod_one] at round
  refine Eq.trans round (congrArg nearest ?_)
  rw [zpow_add₀ two_ne_zero]
  push_cast
  ring

/-! ## One -/

/-- The number one of the format. -/
def one : UnpackedFloat :=
  .finite .positive (2 ^ 52) (-52) (by decide)

theorem unpack_one : (1 : Float).toModel.unpack = one :=
  rfl

theorem representable_one : Representable one :=
  representable_unpack (1 : Float).toModel

theorem value_one : ((2 ^ 52 : Nat) : ℚ) * 2 ^ (-52 : ℤ) = 1 := by
  norm_num

/-- The magnitude of a number of the format is one too. -/
theorem representable_positive {s : Sign} {m : Nat} {e : ℤ} {pos : 0 < m}
    (h : Representable (.finite s m e pos)) : Representable (.finite .positive m e pos) :=
  h

theorem mul_one_unpacked {u : UnpackedFloat} (h : Representable u) : u.mul binary64 one = u := by
  cases u with
  | notANumber => rfl
  | infinity s | zero s => cases s <;> rfl
  | finite s m e pos =>
    have magnitude := mul_eq_nearest (representable_positive h) representable_one
    rw [value_one, mul_one, nearest_of_representable pos h] at magnitude
    rw [one, UnpackedFloat.mul, mul_positive]
    exact roundWithAccuracy_of_positive magnitude s

theorem div_one_unpacked {u : UnpackedFloat} (h : Representable u) : u.div binary64 one = u := by
  cases u with
  | notANumber => rfl
  | infinity s | zero s => cases s <;> rfl
  | finite s m e pos =>
    have magnitude := div_eq_nearest pos (b := 2 ^ 52) (by decide) e (-52)
    rw [value_one, div_one, nearest_of_representable pos h] at magnitude
    rw [one, UnpackedFloat.div, div_positive]
    exact roundWithAccuracy_of_positive magnitude s

/-- **A double times one is that double.** -/
theorem mul_one_eq (x : Float) : x * 1 = x := by
  have format := representable_unpack x.toModel
  apply eq_of_unpack_eq
  show (Float.Model.pack (x.toModel.unpack.mul binary64 (1 : Float).toModel.unpack)).unpack = _
  rw [unpack_one, mul_one_unpacked format]
  exact unpack_pack format

/-- **A double by one is that double.** -/
theorem div_one_eq (x : Float) : x / 1 = x := by
  have format := representable_unpack x.toModel
  apply eq_of_unpack_eq
  show (Float.Model.pack (x.toModel.unpack.div binary64 (1 : Float).toModel.unpack)).unpack = _
  rw [unpack_one, div_one_unpacked format]
  exact unpack_pack format

/-- A double that compares as equal to one is one. -/
theorem eq_one_of_beq {x : Float} (h : (x == 1) = true) : x = 1 := by
  refine eq_of_beq h ?_ (by decide)
  replace h : x.toModel.unpack.beq (1 : Float).toModel.unpack = true := h
  rw [unpack_one] at h
  rw [isNegative]
  cases eq : x.toModel.unpack with
  | notANumber => rfl
  | infinity s | zero s | finite s =>
    rw [eq] at h
    cases s with
    | positive => rfl
    | negative => cases h

/-! ## Zeros -/

/-- A number that is neither above nor below zero is one of the two zeros. -/
theorem exists_zero {x : Float} (finite : x.isFinite = true) (above : ¬ x > 0) (below : ¬ x < 0) :
    ∃ s, x.toModel.unpack = .zero s := by
  rw [isFinite_eq] at finite
  replace above : ¬ (UnpackedFloat.zero .positive).lt x.toModel.unpack = true :=
    fun h => above (decide_eq_true h)
  replace below : ¬ x.toModel.unpack.lt (.zero .positive) = true := fun h => below (decide_eq_true h)
  cases eq : x.toModel.unpack with
  | zero s => exact ⟨s, rfl⟩
  | finite s m e pos =>
    rw [eq] at above below
    cases s with
    | positive => exact absurd rfl above
    | negative => exact absurd rfl below
  | _ =>
    rw [eq] at finite
    cases finite

/-- A number below zero is written with a minus sign. -/
theorem isNegative_of_lt_zero {x : Float} (h : x < 0) : isNegative x = true := by
  replace h : x.toModel.unpack.lt (.zero .positive) = true := of_decide_eq_true h
  rw [isNegative]
  cases eq : x.toModel.unpack with
  | notANumber =>
    rw [eq] at h
    cases h
  | infinity s | zero s | finite s =>
    rw [eq] at h
    cases s with
    | negative => rfl
    | positive => cases h

/-! ## Sums -/

/-- **A difference is the sum with the negation.** -/
theorem sub_eq_add (x y : Float) : x - y = x + -y := by
  apply congrArg Float.ofModel
  show Float.Model.pack (UnpackedFloat.sub binary64 x.toModel.unpack y.toModel.unpack)
    = Float.Model.pack (UnpackedFloat.add binary64 x.toModel.unpack (-y).toModel.unpack)
  rw [unpack_neg]
  refine congrArg Float.Model.pack ?_
  cases x.toModel.unpack with
  | notANumber => rfl
  | infinity s | zero s => cases y.toModel.unpack <;> rfl
  | finite s m e pos =>
    cases y.toModel.unpack with
    | finite t n k pos' =>
      have opposite : ∀ a : Nat, (-t).apply a = -t.apply a := by
        intro a
        cases t with
        | positive => rfl
        | negative => exact (Int.neg_neg _).symm
      simp only [UnpackedFloat.sub, UnpackedFloat.neg, UnpackedFloat.add, opposite, Int.sub_eq_add_neg]
    | _ => rfl

/-- Two doubles are equal as numbers, or neither is a number. The two zeros are alike. -/
def Alike (x y : Float) : Prop :=
  (x == y) = true ∨ x.isNaN = true ∧ y.isNaN = true

theorem Alike.refl (x : Float) : Alike x x := by
  have equal : x.toModel.unpack.beq x.toModel.unpack = true ∨ x.toModel.unpack.isNaN = true := by
    cases x.toModel.unpack with
    | notANumber => exact .inr rfl
    | infinity s | zero s => cases s <;> exact .inl rfl
    | finite s m e pos =>
      left
      cases s <;> simp [UnpackedFloat.beq, UnpackedFloat.compare]
  exact equal.imp_right fun none => ⟨none, none⟩

/-- **To add a zero changes no more than the sign of a zero.** -/
theorem alike_add_zero (x : Float) {y : Float} {t : Sign} (zero : y.toModel.unpack = .zero t) :
    Alike x (x + y) := by
  have sum : (x + y).toModel.unpack
      = (Float.Model.pack (UnpackedFloat.add binary64 x.toModel.unpack (.zero t))).unpack := by
    rw [← zero]
    rfl
  cases eq : x.toModel.unpack with
  | zero s =>
    -- two zeros are added to one of them, and all zeros are equal
    have zeros : ∃ s', (x + y).toModel.unpack = .zero s' := by
      rw [sum, eq, UnpackedFloat.add]
      split
      · exact ⟨_, unpack_pack trivial⟩
      · exact ⟨_, unpack_pack trivial⟩
    obtain ⟨s', eq'⟩ := zeros
    left
    show x.toModel.unpack.beq (x + y).toModel.unpack = true
    rw [eq, eq']
    rfl
  | _ =>
    have same : x + y = x := by
      have format := representable_unpack x.toModel
      apply eq_of_unpack_eq
      rw [eq] at format
      rw [sum, eq]
      exact unpack_pack format
    rw [same]
    exact .refl x

end UnitCalc.Double
