import Mathlib
import UnitCalc.Double.Parts

/-!
# `Proofs.Double.Packing` — bit patterns and the numbers they stand for

A double is a bit pattern, and every operation on doubles unpacks its operands, computes, and packs
the result. This module shows that nothing is lost on the way: packing what was unpacked gives the
same pattern back (`pack_unpack`), and unpacking what was packed gives the same number back, provided
that the format has the number (`unpack_pack`).

The laws of sign and magnitude follow. They are equations between doubles, so they tell the two
zeros apart.
-/

namespace UnitCalc.Double

open Float.Model Float.Model.UnpackedFloat Float.Model.Format

/-! ## Fields of a bit pattern -/

/-- The sign field of three joined fields is the sign. -/
theorem sign_packComponents (s : Sign) (E : BitVec 11) (M : BitVec 52) :
    Sign.ofBitVec (unpackSign (packComponents binary64 s E M)) = s := by
  have top : unpackSign (packComponents binary64 s E M) = s.toBitVec := by
    ext i hi
    obtain rfl : i = 0 := by omega
    simp [unpackSign, packComponents]
    grind
  rw [top]
  cases s <;> rfl

/-- The three fields of a pattern, joined again, are the pattern. -/
theorem packComponents_fields (b : BitVec binary64.numBits) :
    packComponents binary64 (Sign.ofBitVec (unpackSign b)) (unpackExponent b) (unpackMantissa b)
      = b := by
  have sign : ∀ v : BitVec 1, (Sign.ofBitVec v).toBitVec = v := by decide
  rw [packComponents, sign]
  ext i hi
  simp only [unpackSign, unpackExponent, unpackMantissa]
  grind

theorem toNat_one_append (M : BitVec 52) : (1#1 ++ M).toNat = 2 ^ 52 + M.toNat := by
  rw [BitVec.toNat_append, ← Nat.shiftLeft_add_eq_or_of_lt M.isLt]
  rfl

/-- A mantissa has its full 53 digits exactly when the leading one is set. -/
theorem log2_mantissa {m : Nat} (hm : m < 2 ^ 53) : m.log2 + 1 = 53 ↔ 2 ^ 52 ≤ m := by
  rcases Nat.eq_zero_or_pos m with rfl | pos
  · simp
  · have low : 52 ≤ m.log2 ↔ 2 ^ 52 ≤ m := Nat.le_log2 (Nat.ne_of_gt pos)
    have high : m.log2 < 53 := (Nat.log2_lt (Nat.ne_of_gt pos)).2 hm
    omega

/-! ## Numbers of the format -/

/-- The format has the number: the mantissa has 53 binary digits, or fewer at the least exponent. -/
def Representable : UnpackedFloat → Prop
  | .finite _ m e _ => m < 2 ^ 53 ∧ (2 ^ 52 ≤ m ∨ e = -1074) ∧ -1074 ≤ e ∧ e ≤ 971
  | _ => True

/-- Three joined fields with an exponent field that is neither empty nor full: the mantissa gains its
    leading digit. -/
theorem unpack_normal (s : Sign) {E : BitVec 11} {M : BitVec 52} (h0 : E ≠ 0#11) (h1 : E ≠ -1#11) :
    UnpackedFloat.unpack binary64 (packComponents binary64 s E M)
      = .finite s (1#1 ++ M).toNat (E.toNat - 1075) (by rw [toNat_one_append]; omega) := by
  rw [UnpackedFloat.unpack]
  simp only [unpackExponent_packComponents, unpackMantissa_packComponents, sign_packComponents]
  rw [if_neg h1, if_neg h0]
  rfl

/-- Three joined fields with an empty exponent field and some mantissa. -/
theorem unpack_subnormal (s : Sign) {M : BitVec 52} (h : M ≠ 0#52) :
    UnpackedFloat.unpack binary64 (packComponents binary64 s 0#11 M)
      = .finite s M.toNat (-1074) (Nat.pos_of_ne_zero fun h0 => h (BitVec.eq_of_toNat_eq h0)) := by
  rw [UnpackedFloat.unpack]
  simp only [unpackExponent_packComponents, unpackMantissa_packComponents, sign_packComponents]
  rw [if_neg (by decide), if_pos trivial, dif_neg h]
  rfl

theorem pack_normal (s : Sign) {m : Nat} {e : Int} (pos : 0 < m) (hm : m < 2 ^ 53)
    (full : 2 ^ 52 ≤ m) (he : e ≤ 971) :
    UnpackedFloat.pack binary64 (.finite s m e pos)
      = packComponents binary64 s (BitVec.ofNat 11 (e + 1075).toNat) (BitVec.ofNat 52 m) := by
  have bias : (e + (binary64.exponentBias : Int) + (binary64.mantissaBitsWithoutImplicit : Int)).toNat
      = (e + 1075).toNat := by
    show (e + 1023 + 52).toNat = _
    omega
  rw [UnpackedFloat.pack]
  simp only [bias]
  rw [if_neg (by show ¬ 2 ^ 11 ≤ _; omega)]
  exact if_pos ((log2_mantissa hm).2 full)

theorem pack_subnormal (s : Sign) {m : Nat} (pos : 0 < m) (hm : m < 2 ^ 52) :
    UnpackedFloat.pack binary64 (.finite s m (-1074) pos)
      = packComponents binary64 s 0#11 (BitVec.ofNat 52 m) := by
  have short : ¬ m.log2 + 1 = 53 := by
    rw [log2_mantissa (by omega)]
    omega
  rw [UnpackedFloat.pack]
  exact (if_neg (by decide)).trans (if_neg short)

/-- A number beyond the largest exponent is packed as an infinity. -/
theorem pack_beyond (s : Sign) {m : Nat} {e : Int} (pos : 0 < m) (he : 972 ≤ e) :
    UnpackedFloat.pack binary64 (.finite s m e pos) = packedInfinity binary64 s := by
  rw [UnpackedFloat.pack]
  refine if_pos ?_
  show 2 ^ 11 ≤ (e + 1023 + 52).toNat + 1
  omega

/-- **Unpacking what was packed** gives every number of the format back. -/
theorem unpack_pack {u : UnpackedFloat} (h : Representable u) : (Float.Model.pack u).unpack = u := by
  show UnpackedFloat.unpack binary64 (UnpackedFloat.pack binary64 u) = u
  cases u with
  | notANumber => rfl
  | infinity s => cases s <;> rfl
  | zero s => cases s <;> rfl
  | finite s m e pos =>
    obtain ⟨hm, hlead, hlow, hhigh⟩ := h
    by_cases full : 2 ^ 52 ≤ m
    · -- the leading digit is not stored, and the exponent field is neither empty nor full
      have field : (BitVec.ofNat 11 (e + 1075).toNat).toNat = (e + 1075).toNat :=
        Nat.mod_eq_of_lt (by omega)
      have h0 : BitVec.ofNat 11 (e + 1075).toNat ≠ 0#11 := by
        rw [Ne, ← BitVec.toNat_inj, field]
        show (e + 1075).toNat ≠ 0
        omega
      have h1 : BitVec.ofNat 11 (e + 1075).toNat ≠ -1#11 := by
        rw [Ne, ← BitVec.toNat_inj, field]
        show (e + 1075).toNat ≠ 2047
        omega
      have mantissa : (1#1 ++ BitVec.ofNat 52 m).toNat = m := by
        rw [toNat_one_append, BitVec.toNat_ofNat]
        omega
      rw [pack_normal s pos hm full hhigh, unpack_normal s h0 h1]
      simp only [mantissa, field, UnpackedFloat.finite.injEq, true_and]
      omega
    · -- all digits are stored, and the empty exponent field stands for the least exponent
      obtain rfl : e = -1074 := hlead.resolve_left full
      have mantissa : (BitVec.ofNat 52 m).toNat = m := Nat.mod_eq_of_lt (by omega)
      have h0 : BitVec.ofNat 52 m ≠ 0#52 := by
        rw [Ne, ← BitVec.toNat_inj, mantissa]
        exact Nat.ne_of_gt pos
      rw [pack_subnormal s pos (by omega), unpack_subnormal s h0]
      simp only [mantissa]

/-- What is unpacked from a pattern is a number of the format, and packing it gives the pattern back.
    The cases are those of the exponent field. -/
theorem unpack_spec {b : BitVec binary64.numBits} (valid : binary64.Valid b) :
    Representable (UnpackedFloat.unpack binary64 b)
      ∧ UnpackedFloat.pack binary64 (UnpackedFloat.unpack binary64 b) = b := by
  have join := packComponents_fields b
  have hb := valid.eq_packedNaN
  generalize Sign.ofBitVec (unpackSign b) = s at join
  generalize unpackExponent b = E at join hb
  generalize unpackMantissa b = M at join hb
  have hE : E.toNat < 2048 := E.isLt
  have hM : M.toNat < 2 ^ 52 := M.isLt
  by_cases full : E = -1#11
  · by_cases none : M = 0#52
    · subst full none
      have infinite : UnpackedFloat.unpack binary64 b = .infinity s := by
        rw [← join, UnpackedFloat.unpack]
        simp only [unpackExponent_packComponents, unpackMantissa_packComponents,
          sign_packComponents]
        rfl
      rw [infinite]
      exact ⟨trivial, join⟩
    · -- there is one pattern of no number, since others are not valid
      obtain rfl := hb full none
      exact ⟨trivial, rfl⟩
  · by_cases low : E = 0#11
    · subst low
      by_cases none : M = 0#52
      · subst none
        have zero : UnpackedFloat.unpack binary64 b = .zero s := by
          rw [← join, UnpackedFloat.unpack]
          simp only [unpackExponent_packComponents, unpackMantissa_packComponents,
            sign_packComponents]
          rfl
        rw [zero]
        exact ⟨trivial, join⟩
      · rw [← join, unpack_subnormal s none]
        refine ⟨⟨by omega, .inr rfl, by omega, by omega⟩, ?_⟩
        rw [pack_subnormal s _ hM, BitVec.ofNat_toNat, BitVec.setWidth_eq]
    · have h0 : E.toNat ≠ 0 := fun h => low (BitVec.eq_of_toNat_eq h)
      have h1 : E.toNat ≠ 2047 := fun h => full (BitVec.eq_of_toNat_eq h)
      have lead := toNat_one_append M
      rw [← join, unpack_normal s low full]
      refine ⟨⟨by omega, .inl (by omega), by omega, by omega⟩, ?_⟩
      rw [pack_normal s _ (by omega) (by omega) (by omega)]
      congr 1
      · rw [show ((E.toNat : Int) - 1075 + 1075).toNat = E.toNat by omega, BitVec.ofNat_toNat,
          BitVec.setWidth_eq]
      · rw [← BitVec.toNat_inj, BitVec.toNat_ofNat, lead]
        omega

theorem representable_unpack (f : Float.Model) : Representable f.unpack :=
  (unpack_spec f.valid).1

/-- **Packing what was unpacked** gives the same pattern back. -/
theorem pack_unpack (f : Float.Model) : Float.Model.pack f.unpack = f := by
  obtain ⟨bits, valid⟩ := f
  simp only [Float.Model.pack, Float.Model.unpack, (unpack_spec valid).2]

/-- A double is what its pattern stands for. -/
theorem eq_of_unpack_eq {x y : Float} (h : x.toModel.unpack = y.toModel.unpack) : x = y := by
  obtain ⟨f⟩ := x
  obtain ⟨g⟩ := y
  rw [← pack_unpack f, ← pack_unpack g, h]

/-! ## Sign and magnitude -/

theorem unpack_neg (x : Float) : (-x).toModel.unpack = x.toModel.unpack.neg := by
  refine unpack_pack ?_
  have h := representable_unpack x.toModel
  cases eq : x.toModel.unpack with
  | finite => rw [eq] at h; exact h
  | _ => trivial

theorem unpack_abs (x : Float) : x.abs.toModel.unpack = x.toModel.unpack.abs := by
  refine unpack_pack ?_
  have h := representable_unpack x.toModel
  cases eq : x.toModel.unpack with
  | finite => rw [eq] at h; exact h
  | _ => trivial

/-- Negating the magnitude of a negative double gives the double back, also `-0`. -/
theorem neg_abs {x : Float} (h : isNegative x = true) : -x.abs = x := by
  apply eq_of_unpack_eq
  rw [unpack_neg, unpack_abs]
  rw [isNegative] at h
  cases eq : x.toModel.unpack with
  | notANumber => simp [eq] at h
  | infinity s | zero s | finite s =>
    rw [eq] at h
    cases s with
    | negative => rfl
    | positive => cases h

/-- What is packed from a positive number is not negative, even where the number is rounded to zero or
    lies beyond every double. -/
theorem isNegative_pack {m : Nat} {e : Int} (pos : 0 < m) :
    isNegative ⟨Float.Model.pack (.finite .positive m e pos)⟩ = false := by
  obtain ⟨E, M, fields⟩ : ∃ E M, UnpackedFloat.pack binary64 (.finite .positive m e pos)
      = packComponents binary64 .positive E M := by
    rw [UnpackedFloat.pack]
    dsimp only
    split
    · exact ⟨_, _, rfl⟩
    · split <;> exact ⟨_, _, rfl⟩
  rw [isNegative]
  simp only [Float.Model.pack, Float.Model.unpack, fields, UnpackedFloat.unpack,
    unpackExponent_packComponents, unpackMantissa_packComponents, sign_packComponents]
  by_cases full : E = -1#11
  · by_cases none : M = 0#52
    · simp only [full, none, if_true]
      rfl
    · simp only [full, none, if_true, if_false]
  · by_cases low : E = 0#11
    · by_cases none : M = 0#52 <;> simp only [low, none] <;> rfl
    · simp only [full, low, if_false]
      rfl

theorem isNegative_abs (x : Float) : isNegative x.abs = false := by
  rw [isNegative, unpack_abs]
  cases x.toModel.unpack <;> rfl

theorem isFinite_abs (x : Float) : x.abs.isFinite = x.isFinite := by
  show x.abs.toModel.unpack.isFinite = x.toModel.unpack.isFinite
  rw [unpack_abs]
  cases x.toModel.unpack <;> rfl

theorem sign_positive {s : Sign} (h : (s == .negative) = false) : s = .positive := by
  cases s with
  | positive => rfl
  | negative => cases h

/-- Doubles that compare as equal and are not negative are the same: the one pair of different doubles
    that compare as equal are the two zeros. -/
theorem eq_of_beq {x y : Float} (h : (x == y) = true) (hx : isNegative x = false)
    (hy : isNegative y = false) : x = y := by
  apply eq_of_unpack_eq
  replace h : x.toModel.unpack.beq y.toModel.unpack = true := h
  rw [isNegative] at hx hy
  generalize x.toModel.unpack = u at h hx ⊢
  generalize y.toModel.unpack = v at h hy ⊢
  cases u with
  | notANumber => cases v <;> cases h
  | infinity s =>
    obtain rfl := sign_positive hx
    cases v with
    | infinity t => rw [sign_positive hy]
    | _ => cases h
  | zero s =>
    obtain rfl := sign_positive hx
    cases v with
    | zero t => rw [sign_positive hy]
    | finite t => obtain rfl := sign_positive hy; cases h
    | infinity t => obtain rfl := sign_positive hy; cases h
    | notANumber => cases h
  | finite s m e pos =>
    obtain rfl := sign_positive hx
    cases v with
    | finite t n k pos' =>
      obtain rfl := sign_positive hy
      replace h : ((compare e k).then (compare m n) == .eq) = true := h
      obtain ⟨he, hm⟩ : e = k ∧ m = n := by simpa using h
      subst he hm
      rfl
    | infinity t => obtain rfl := sign_positive hy; cases h
    | _ => cases h

/-- Equal doubles are not below one another. -/
theorem not_lt_of_beq {x y : Float} (h : (x == y) = true) : ¬ x < y := by
  intro below
  have equal : (x.toModel.unpack.compare y.toModel.unpack == some .eq) = true := h
  have less : (x.toModel.unpack.compare y.toModel.unpack == some .lt) = true := of_decide_eq_true below
  rw [beq_iff_eq] at equal less
  rw [equal] at less
  cases less

end UnitCalc.Double
