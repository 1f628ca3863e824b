import UnitCalc.Decimal.Notation
import UnitCalc.Decimal.Reading
import UnitCalc.Proofs.Decimal.Nearest

/-!
# `Proofs.Decimal.ReadBack` — a written double reads back

The plain notation of a finite double that is not negative is a run of digits with at most one point
among them, and the number that these characters stand for is read as the double they were written for
(`toFloat_shortest`, `ofChars?_plain`). A negative double is written as a minus sign and its magnitude
(`chars_of_isNegative`), and `-0` is negative.

The exact decimal of a double reads back because the double is nearest to its own value; a shorter one
because `onGrid` has tried it; and taking zeros off the end does not change a value.
-/

namespace UnitCalc

open Float.Model Double

namespace Double

/-! ## Parts of finite doubles -/

theorem isFinite_eq (x : Float) : x.isFinite = x.toModel.unpack.isFinite :=
  rfl

/-- The doubles with parts are the finite ones. -/
theorem isFinite_iff_parts {x : Float} : x.isFinite = true ↔ ∃ p, parts? x = some p := by
  rw [isFinite_eq, parts?]
  cases x.toModel.unpack <;> simp [UnpackedFloat.isFinite]

theorem negative_of_parts {x : Float} {p : Parts} (h : parts? x = some p) :
    p.negative = isNegative x := by
  rw [parts?] at h
  rw [isNegative]
  cases eq : x.toModel.unpack with
  | zero s | finite s =>
    rw [eq] at h
    obtain rfl := Option.some.inj h
    rfl
  | _ => rw [eq] at h; cases h

/-- The magnitude of a double has its mantissa and its exponent. -/
theorem parts?_abs {x : Float} {p : Parts} (h : parts? x = some p) :
    parts? x.abs = some { p with negative := false } := by
  rw [parts?] at h ⊢
  rw [unpack_abs]
  cases eq : x.toModel.unpack with
  | zero s | finite s =>
    rw [eq] at h
    obtain rfl := Option.some.inj h
    rfl
  | _ => rw [eq] at h; cases h

/-- A double that is not negative is its own magnitude. -/
theorem abs_of_not_isNegative {x : Float} (finite : x.isFinite = true) (h : isNegative x = false) :
    x.abs = x := by
  apply eq_of_unpack_eq
  rw [unpack_abs]
  rw [isNegative] at h
  rw [isFinite_eq] at finite
  cases eq : x.toModel.unpack with
  | zero s | finite s =>
    rw [eq] at h
    rw [sign_positive h]
    rfl
  | _ => rw [eq] at finite; cases finite

/-! ## The double nearest to its own value -/

/-- A number of the format is the nearest one to its value. -/
theorem nearest_of_representable {m : Nat} {e : ℤ} (pos : 0 < m)
    (h : Representable (.finite .positive m e pos)) :
    nearest (m * 2 ^ e) = .finite .positive m e pos := by
  obtain ⟨short, full, least, -⟩ := h
  have unit : (0 : ℚ) < 2 ^ e := by positivity
  have last : quantum (m * 2 ^ e) = e := by
    refine quantum_eq (by positivity) ?_ (full.symm.imp_right ?_) least
    · rw [zpow_add₀ two_ne_zero, mul_lt_mul_iff_left₀ unit]
      exact_mod_cast short
    · intro h
      rw [zpow_add₀ two_ne_zero, mul_le_mul_iff_left₀ unit]
      exact_mod_cast h
  rw [nearest, last, mul_div_cancel_right₀ _ unit.ne', roundEven_natCast, carry, dif_neg pos.ne',
    if_pos short]

end Double

namespace Decimal

/-- Decimals of one value read as one double. -/
theorem toFloat_congr {d d' : Decimal} (h : d.value = d'.value) : d.toFloat = d'.toFloat := by
  have same : d.toFloat.toModel = d'.toFloat.toModel := by
    rw [toFloat_eq_nearest, toFloat_eq_nearest, h]
  exact congrArg Float.ofModel same

/-- No decimal reads as a negative double. -/
theorem isNegative_toFloat (d : Decimal) : isNegative d.toFloat = false := by
  have model : d.toFloat = ⟨Float.Model.pack (nearest d.value)⟩ :=
    congrArg Float.ofModel (toFloat_eq_nearest d)
  rw [model, nearest, carry]
  split
  · decide
  · split <;> exact isNegative_pack _

theorem value_ofParts (p : Parts) : (ofParts p).value = p.mantissa * 2 ^ p.exponent := by
  obtain ⟨negative, m, e⟩ := p
  rw [ofParts, value]
  cases e with
  | ofNat e => simp [Nat.shiftLeft_eq]
  | negSucc k =>
    simp only [Int.negSucc_eq, zpow_neg, Nat.pow_eq]
    push_cast
    rw [show (10 : ℚ) = 2 * 5 by norm_num, mul_zpow]
    norm_cast
    push_cast
    field_simp

/-- **The exact decimal of a double reads as its magnitude.** -/
theorem toFloat_ofParts {x : Float} {p : Parts} (h : parts? x = some p) :
    (ofParts p).toFloat = x.abs := by
  apply eq_of_unpack_eq
  rw [toFloat_eq_nearest, unpack_abs, value_ofParts]
  have format := representable_unpack x.toModel
  rw [parts?] at h
  cases eq : x.toModel.unpack with
  | zero s =>
    rw [eq] at h
    obtain rfl := Option.some.inj h
    rw [Nat.cast_zero, zero_mul, nearest, zero_div, show roundEven 0 = 0 from roundEven_natCast 0]
    rfl
  | finite s m e pos =>
    rw [eq] at h format
    obtain rfl := Option.some.inj h
    rw [nearest_of_representable pos format]
    exact unpack_pack format
  | _ => rw [eq] at h; cases h

/-! ## The shortest decimal -/

theorem value_trimZeros (turns : Nat) (d : Decimal) : (trimZeros turns d).value = d.value := by
  induction turns generalizing d with
  | zero => rfl
  | succ turns ih =>
    rw [trimZeros]
    split
    · next zero =>
      have split : (d.coefficient : ℚ) = (d.coefficient / 10 : Nat) * 10 := by
        exact_mod_cast (Nat.div_mul_cancel (Nat.dvd_of_mod_eq_zero zero)).symm
      rw [ih, value, value, split, zpow_add₀ (by norm_num), zpow_one]
      ring
    · rfl

/-- Trailing zeros do not matter. -/
theorem value_trim (d : Decimal) : d.trim.value = d.value := by
  rw [trim]
  split
  · next zero => simp [value, zero]
  · exact value_trimZeros _ _

/-- A decimal from the grid has been read back. -/
theorem toFloat_onGrid {tie : Tie} {x : Float} {d d' : Decimal} {n : Nat}
    (h : onGrid tie x d n = some d') : (d'.toFloat == x) = true := by
  simp only [onGrid] at h
  split at h
  · next below above =>
    obtain rfl := Option.some.inj h
    rw [Tie.roundDiv]
    split
    · exact above
    · exact below
  · next below _ =>
    obtain rfl := Option.some.inj h
    exact below
  · next _ above =>
    obtain rfl := Option.some.inj h
    exact above
  · cases h

/-- **The shortest decimal of a double reads as its magnitude.** -/
theorem toFloat_shortest (tie : Tie) {x : Float} {p : Parts} (h : parts? x = some p) :
    (shortest tie p).toFloat = x.abs := by
  rw [← toFloat_ofParts h, shortest]
  rw [toFloat_congr (value_trim _)]
  cases found : (List.range' 1 17).findSome? (onGrid tie (ofParts p).toFloat (ofParts p)) with
  -- no shorter decimal reads back, so the exact one stays
  | none => rfl
  | some d =>
    obtain ⟨n, -, grid⟩ := List.exists_of_findSome?_eq_some found
    exact eq_of_beq (toFloat_onGrid grid) (isNegative_toFloat d) (isNegative_toFloat _)

/-! ## Plain notation -/

/-- Digits, or digits with a point behind the first of them, and the number they stand for. -/
inductive Plain : List Char → ℚ → Prop
  | whole {ds : List Char} (some_digit : ds ≠ []) (digits : ∀ c ∈ ds, c.isDigit = true) :
      Plain ds (natOfDigits ds)
  | point {ds ps : List Char} (some_digit : ds ≠ []) (digits : ∀ c ∈ ds, c.isDigit = true)
      (places : ∀ c ∈ ps, c.isDigit = true) :
      Plain (ds ++ '.' :: ps) (natOfDigits (ds ++ ps) * 10 ^ (-(ps.length : ℤ)))

theorem isDigit_of_mem_digits {d : Decimal} {c : Char} (h : c ∈ d.digits) : c.isDigit = true :=
  Nat.isDigit_of_mem_toDigits (by decide) (by decide) h

theorem natOfDigits_digits (d : Decimal) : natOfDigits d.digits = d.coefficient :=
  Nat.ofDigitChars_ten_toDigits

theorem natOfDigits_append_zeros (ds : List Char) (n : Nat) :
    natOfDigits (ds ++ List.replicate n '0') = natOfDigits ds * 10 ^ n := by
  rw [natOfDigits, Nat.ofDigitChars_append, Nat.ofDigitChars_replicate_zero, Nat.mul_comm]
  rfl

theorem natOfDigits_zeros_append (ds : List Char) (n : Nat) :
    natOfDigits (List.replicate n '0' ++ ds) = natOfDigits ds := by
  rw [natOfDigits, Nat.ofDigitChars_append, Nat.ofDigitChars_replicate_zero, Nat.mul_zero]
  rfl

theorem isDigit_of_mem_zeros {n : Nat} {c : Char} (h : c ∈ List.replicate n '0') :
    c.isDigit = true := by
  rw [List.eq_of_mem_replicate h]
  decide

/-- **The plain notation of a decimal stands for its value.** -/
theorem plain_value (d : Decimal) : Plain d.plain d.value := by
  obtain ⟨m, e⟩ := d
  rw [Decimal.plain]
  cases e with
  | ofNat e =>
    show Plain (if m = 0 then ['0'] else Nat.toDigits 10 m ++ List.replicate e '0') (m * 10 ^ (e : ℤ))
    split
    · next zero =>
      rw [zero, Nat.cast_zero, zero_mul]
      exact_mod_cast Plain.whole (List.cons_ne_nil '0' []) (by simp)
    · have number : natOfDigits (Nat.toDigits 10 m ++ List.replicate e '0') = m * 10 ^ e := by
        rw [natOfDigits_append_zeros]
        exact congrArg (· * 10 ^ e) (natOfDigits_digits ⟨m, 0⟩)
      have read : Plain (Nat.toDigits 10 m ++ List.replicate e '0') _ :=
        Plain.whole (List.append_ne_nil_of_left_ne_nil Nat.toDigits_ne_nil _) fun c h =>
          (List.mem_append.1 h).elim (isDigit_of_mem_digits (d := ⟨m, 0⟩)) isDigit_of_mem_zeros
      rw [number] at read
      exact_mod_cast read
  | negSucc k =>
    dsimp only
    -- zeros in front leave a digit before the point, and do not change the number
    obtain ⟨padded, hp⟩ : ∃ padded, padded
      = List.replicate (k + 1 + 1 - width ⟨m, .negSucc k⟩) '0' ++ digits ⟨m, .negSucc k⟩ := ⟨_, rfl⟩
    have number : natOfDigits padded = m := by
      rw [hp, natOfDigits_zeros_append, natOfDigits_digits]
    have digit : ∀ c ∈ padded, c.isDigit = true := by
      intro c h
      rw [hp] at h
      exact (List.mem_append.1 h).elim isDigit_of_mem_zeros isDigit_of_mem_digits
    have long : k + 1 < padded.length := by
      rw [hp, List.length_append, List.length_replicate, ← width]
      omega
    have places : (padded.drop (padded.length - (k + 1))).length = k + 1 := by
      rw [List.length_drop]
      omega
    have read : Plain (padded.take (padded.length - (k + 1)) ++ '.' ::
        padded.drop (padded.length - (k + 1))) _ :=
      Plain.point (List.ne_nil_of_length_pos (by rw [List.length_take]; omega))
        (fun c h => digit c (List.mem_of_mem_take h)) (fun c h => digit c (List.mem_of_mem_drop h))
    rw [List.take_append_drop, number, places] at read
    rw [← hp, value, Int.negSucc_eq]
    exact_mod_cast read

theorem digitSpan_append_of_digits {ds rest : List Char} (digits : ∀ c ∈ ds, c.isDigit = true)
    (other : ∀ c, rest.head? = some c → c.isDigit = false) :
    Text.digitSpan (ds ++ rest) = (ds, rest) := by
  have none : rest.takeWhile Char.isDigit = [] ∧ rest.dropWhile Char.isDigit = rest := by
    cases rest with
    | nil => exact ⟨rfl, rfl⟩
    | cons c cs =>
      have stop : c.isDigit = false := other c rfl
      exact ⟨List.takeWhile_cons_of_neg (by simp [stop]), List.dropWhile_cons_of_neg (by simp [stop])⟩
  rw [Text.digitSpan, List.takeWhile_append_of_pos digits, List.dropWhile_append_of_pos digits, none.1,
    none.2, List.append_nil]

/-- **Plain notation is read** as a decimal of the value it stands for. -/
theorem ofChars?_plain {cs : List Char} {v : ℚ} (h : Plain cs v) :
    ∃ d, ofChars? cs = some d ∧ d.value = v := by
  cases h with
  | whole some_digit digits =>
    have span : Text.digitSpan (cs ++ []) = (cs, []) := digitSpan_append_of_digits digits (by simp)
    rw [List.append_nil] at span
    refine ⟨⟨natOfDigits cs, 0⟩, ?_, ?_⟩
    · simp [ofChars?, span, placesSpan, exponentOf?, some_digit]
    · simp [value]
  | @point ds ps some_digit digits places =>
    have span : Text.digitSpan (ds ++ '.' :: ps) = (ds, '.' :: ps) :=
      digitSpan_append_of_digits digits (by simp)
    have behind : Text.digitSpan (ps ++ []) = (ps, []) := digitSpan_append_of_digits places (by simp)
    rw [List.append_nil] at behind
    refine ⟨⟨natOfDigits (ds ++ ps), -ps.length⟩, ?_, rfl⟩
    simp [ofChars?, span, behind, placesSpan, exponentOf?, some_digit]

end Decimal

/-! ## Written doubles -/

namespace Double

/-- A text whose first letter begins none of the names of special values is read as a number. -/
theorem ofUnsigned?_cons {c : Char} {cs : List Char} (hi : c.toLower ≠ 'i') (hn : c.toLower ≠ 'n') :
    ofUnsigned? (c :: cs) = (Decimal.ofChars? (c :: cs)).map Decimal.toFloat := by
  have other : ∀ (d : Char) (ds : List Char), c.toLower ≠ d →
      String.ofList ((c :: cs).map Char.toLower) ≠ String.ofList (d :: ds) :=
    fun d ds first eq => first (List.cons.inj (String.ofList_injective eq)).1
  rw [ofUnsigned?, if_neg, if_neg]
  · exact other 'n' ['a', 'n'] hn
  · rintro (inf | infinity)
    · exact other 'i' ['n', 'f'] hi inf
    · exact other 'i' ['n', 'f', 'i', 'n', 'i', 't', 'y'] hi infinity

/-- **A finite double that is not negative is written in plain notation and reads back.** -/
theorem chars_read_back {x : Float} (finite : x.isFinite = true) (h : isNegative x = false) :
    ∃ v, Decimal.Plain (chars x) v ∧ ∀ d : Decimal, d.value = v → d.toFloat = x := by
  obtain ⟨p, parts⟩ := isFinite_iff_parts.1 finite
  refine ⟨(Decimal.shortest .up p).value, ?_, ?_⟩
  · have written : chars x = (Decimal.shortest .up p).plain := by
      rw [chars, parts]
      show signChars p.negative ++ _ = _
      rw [negative_of_parts parts, h]
      rfl
    rw [written]
    exact Decimal.plain_value _
  · intro d same
    rw [Decimal.toFloat_congr same, Decimal.toFloat_shortest .up parts, abs_of_not_isNegative finite h]

/-- A negative double is written as a minus sign and its magnitude. -/
theorem chars_of_isNegative {x : Float} (finite : x.isFinite = true) (h : isNegative x = true) :
    chars x = '-' :: chars x.abs := by
  obtain ⟨p, parts⟩ := isFinite_iff_parts.1 finite
  rw [chars, chars, parts, parts?_abs parts]
  show signChars p.negative ++ _ = _
  rw [negative_of_parts parts, h]
  rfl

end Double

end UnitCalc
