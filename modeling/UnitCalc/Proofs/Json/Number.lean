import UnitCalc.Json.Record
import UnitCalc.Proofs.Decimal.ReadBack

/-!
# `Proofs.Json.Number` — a written number reads back

The spelling of a number is read twice: the reader of JSON cuts it off the text, and a field that wants a
double or a natural number reads its value. Both follow from the parts of the spelling (`Magnitude`):
`numeralSpan?_chars` and `ofChars?_chars`. What is written for a natural number or a double has such
parts, so a natural number reads back, and a double does exactly if it is finite (`float?_ofFloat`).
-/

namespace UnitCalc.Json

open Decimal (natOfDigits)
open Double (signChars)

/-! ## Parts of a numeral -/

/-- The digits before the point: no zero stands before other digits. -/
inductive Whole : List Char → Prop
  | zero : Whole ['0']
  | digits {c : Char} {ds : List Char} (first : c ≠ '0') (all : ∀ d ∈ c :: ds, d.isDigit = true) :
      Whole (c :: ds)

/-- The point and the digits behind it, if there are any. -/
def placesChars (ps : List Char) : List Char :=
  if ps = [] then [] else '.' :: ps

/-- The exponent with its mark and its sign, if there is one. -/
def powerChars : Option ℤ → List Char
  | none => []
  | some power => 'e' :: (if power < 0 then '-' else '+') :: Nat.toDigits 10 power.natAbs

/-- The parts of a number without its sign. -/
structure Magnitude where
  whole : List Char
  places : List Char := []
  power : Option ℤ := none
  whole_spec : Whole whole
  places_spec : ∀ c ∈ places, c.isDigit = true := by simp

namespace Magnitude

def chars (m : Magnitude) : List Char :=
  m.whole ++ (placesChars m.places ++ powerChars m.power)

/-- The number that the parts stand for. -/
def value (m : Magnitude) : ℚ :=
  natOfDigits (m.whole ++ m.places) * 10 ^ (m.power.getD 0 - m.places.length)

end Magnitude

/-- The characters are a number. -/
def Numeral (cs : List Char) : Prop :=
  ∃ (negative : Bool) (m : Magnitude), cs = signChars negative ++ m.chars

/-- No number goes on into the text. -/
def Ended (rest : List Char) : Prop :=
  ∀ c, rest.head? = some c → c.isDigit = false ∧ c ≠ '.' ∧ Text.isExponentMark c = false

theorem ended_nil : Ended [] := by
  simp [Ended]

theorem ended_cons {c : Char} {cs : List Char} (digit : c.isDigit = false) (point : c ≠ '.')
    (mark : Text.isExponentMark c = false) : Ended (c :: cs) := by
  rintro d ⟨⟩
  exact ⟨digit, point, mark⟩

theorem Whole.isDigit {ds : List Char} (h : Whole ds) : ∀ c ∈ ds, c.isDigit = true := by
  cases h with
  | zero => exact List.forall_mem_singleton.2 (by decide)
  | digits _ all => exact all

theorem Whole.exists_cons {ds : List Char} (h : Whole ds) : ∃ c cs, ds = c :: cs ∧ c.isDigit = true := by
  cases h with
  | zero => exact ⟨_, _, rfl, by decide⟩
  | digits _ all => exact ⟨_, _, rfl, all _ List.mem_cons_self⟩

theorem isDigit_of_mem_toDigits {n : Nat} {c : Char} (h : c ∈ Nat.toDigits 10 n) : c.isDigit = true :=
  Nat.isDigit_of_mem_toDigits (by decide) (by decide) h

/-- The digits of a natural number are read as that number. -/
theorem natOfChars?_toDigits (n : Nat) : Decimal.natOfChars? (Nat.toDigits 10 n) = some n := by
  rw [Decimal.natOfChars?,
    if_pos ⟨Nat.toDigits_ne_nil, List.all_eq_true.2 fun _ => isDigit_of_mem_toDigits⟩, natOfDigits,
    Nat.ofDigitChars_ten_toDigits]

/-! ## Cutting a numeral off a text -/

section Cutting

variable {ds ps rest : List Char}

theorem wholeSpan?_append (whole : Whole ds) (stop : ∀ c, rest.head? = some c → c.isDigit = false) :
    wholeSpan? (ds ++ rest) = some (ds, rest) := by
  cases whole with
  | zero =>
    have none : Text.digitSpan ([] ++ rest) = ([], rest) :=
      Decimal.digitSpan_append_of_digits (by simp) stop
    rw [List.nil_append] at none
    show (if (Text.digitSpan rest).1 = [] then some (['0'], rest) else Option.none) = _
    rw [none, if_pos rfl]
  | @digits c ds first all =>
    have span := Decimal.digitSpan_append_of_digits all stop
    rw [List.cons_append] at span ⊢
    rw [wholeSpan?]
    · rw [if_pos (all c List.mem_cons_self), span]
    · exact first

/-- Before what follows the whole part no digit stands, and before what follows the places no point
    either. -/
theorem head?_power (power : Option ℤ) (ended : Ended rest) :
    ∀ c, (powerChars power ++ rest).head? = some c → c.isDigit = false ∧ c ≠ '.' := by
  intro c hc
  cases power with
  | none => exact ⟨(ended c hc).1, (ended c hc).2.1⟩
  | some power =>
    obtain rfl : 'e' = c := Option.some.inj hc
    decide

theorem head?_places (ps : List Char) (power : Option ℤ) (ended : Ended rest) :
    ∀ c, (placesChars ps ++ (powerChars power ++ rest)).head? = some c → c.isDigit = false := by
  intro c hc
  rw [placesChars] at hc
  split at hc
  · exact (head?_power power ended c hc).1
  · obtain rfl : '.' = c := Option.some.inj hc
    decide

theorem fractionSpan?_append (places : ∀ c ∈ ps, c.isDigit = true)
    (stop : ∀ c, rest.head? = some c → c.isDigit = false ∧ c ≠ '.') :
    fractionSpan? (placesChars ps ++ rest) = some (placesChars ps, rest) := by
  rw [placesChars]
  split
  · rw [List.nil_append]
    cases rest with
    | nil => rfl
    | cons c cs =>
      rw [fractionSpan?]
      intro cs' eq
      exact (stop c rfl).2 (List.cons.inj eq).1
  · next some_place =>
    have span := Decimal.digitSpan_append_of_digits places fun c hc => (stop c hc).1
    rw [List.cons_append, fractionSpan?, span]
    exact if_neg some_place

theorem powerSpan?_append (power : Option ℤ) (ended : Ended rest) :
    powerSpan? (powerChars power ++ rest) = some (powerChars power, rest) := by
  cases power with
  | none =>
    cases rest with
    | nil => rfl
    | cons c cs =>
      have mark := (ended c rfl).2.2
      show powerSpan? (c :: cs) = _
      rw [powerSpan?, if_neg (by simp [mark])]
      rfl
  | some power =>
    have span := Decimal.digitSpan_append_of_digits
      (fun _ => isDigit_of_mem_toDigits (n := power.natAbs)) fun c hc => (ended c hc).1
    have sign : Text.signSpan ((if power < 0 then '-' else '+') ::
        (Nat.toDigits 10 power.natAbs ++ rest))
        = ([if power < 0 then '-' else '+'], Nat.toDigits 10 power.natAbs ++ rest) := by
      split <;> rfl
    rw [powerChars, List.cons_append, List.cons_append, powerSpan?, if_pos (by decide), sign]
    dsimp only
    rw [span]
    exact if_neg Nat.toDigits_ne_nil

theorem minusSpan_append (negative : Bool) {cs : List Char} (head : ∀ c, cs.head? = some c → c ≠ '-') :
    minusSpan (signChars negative ++ cs) = (signChars negative, cs) := by
  cases negative with
  | true => rfl
  | false =>
    show minusSpan cs = ([], cs)
    cases cs with
    | nil => rfl
    | cons c cs =>
      rw [minusSpan]
      intro cs' eq
      exact head c rfl (List.cons.inj eq).1

end Cutting

namespace Magnitude

theorem head?_chars (m : Magnitude) (rest : List Char) :
    ∃ c, (m.chars ++ rest).head? = some c ∧ c.isDigit = true := by
  obtain ⟨c, cs, whole, digit⟩ := m.whole_spec.exists_cons
  refine ⟨c, ?_, digit⟩
  rw [chars, whole]
  rfl

/-- **A number is cut off the text that follows it.** -/
theorem numeralSpan?_chars (m : Magnitude) (negative : Bool) {rest : List Char} (ended : Ended rest) :
    numeralSpan? (signChars negative ++ m.chars ++ rest)
      = some (signChars negative ++ m.chars, rest) := by
  have sign : minusSpan (signChars negative ++ (m.chars ++ rest))
      = (signChars negative, m.chars ++ rest) := by
    apply minusSpan_append
    intro c hc
    obtain ⟨d, hd, digit⟩ := m.head?_chars rest
    obtain rfl : c = d := Option.some.inj (hc.symm.trans hd)
    rintro rfl
    cases digit
  have whole := wholeSpan?_append m.whole_spec (head?_places m.places m.power ended)
  have fraction := fractionSpan?_append m.places_spec (head?_power m.power ended)
  have power := powerSpan?_append m.power ended
  have split : m.chars ++ rest = m.whole ++ (placesChars m.places ++ (powerChars m.power ++ rest)) := by
    simp only [chars, List.append_assoc]
  rw [List.append_assoc, numeralSpan?, sign]
  simp only [split, whole, fraction, power, Option.bind_eq_bind, Option.bind_some]
  rw [chars, List.append_assoc, List.append_assoc]
  rfl

end Magnitude

/-! ## The value of a numeral -/

namespace Magnitude

variable (m : Magnitude)

theorem exponentOf?_powerChars (power : Option ℤ) :
    Decimal.exponentOf? (powerChars power) = some (power.getD 0) := by
  cases power with
  | none => rfl
  | some power =>
    have read := natOfChars?_toDigits power.natAbs
    rw [powerChars, Decimal.exponentOf?, if_pos (by decide), Option.getD_some]
    split
    · next negative =>
      show Option.map (Decimal.signed ['-']) (Decimal.natOfChars? (Nat.toDigits 10 power.natAbs)) = _
      rw [read, Option.map_some, Decimal.signed, if_pos rfl]
      refine congrArg some ?_
      omega
    · next positive =>
      show Option.map (Decimal.signed ['+']) (Decimal.natOfChars? (Nat.toDigits 10 power.natAbs)) = _
      rw [read, Option.map_some, Decimal.signed, if_neg (by decide)]
      refine congrArg some ?_
      omega

theorem placesSpan_append : Decimal.placesSpan (placesChars m.places ++ powerChars m.power)
    = (m.places, powerChars m.power) := by
  have stop := head?_power m.power ended_nil
  rw [List.append_nil] at stop
  rw [placesChars]
  split
  · next none =>
    rw [none, List.nil_append]
    cases eq : powerChars m.power with
    | nil => rfl
    | cons c cs =>
      rw [Decimal.placesSpan]
      intro cs' point
      exact (stop c (by rw [eq]; rfl)).2 (List.cons.inj point).1
  · rw [List.cons_append, Decimal.placesSpan,
      Decimal.digitSpan_append_of_digits m.places_spec fun c hc => (stop c hc).1]

/-- **A number is read** as the decimal that its parts stand for. -/
theorem ofChars?_chars : ∃ d, Decimal.ofChars? m.chars = some d ∧ d.value = m.value := by
  have stop := head?_places m.places m.power ended_nil
  rw [List.append_nil] at stop
  have whole := Decimal.digitSpan_append_of_digits m.whole_spec.isDigit stop
  have some_digit : m.whole ++ m.places ≠ [] := by
    obtain ⟨c, cs, eq, -⟩ := m.whole_spec.exists_cons
    simp [eq]
  refine ⟨⟨natOfDigits (m.whole ++ m.places), m.power.getD 0 - m.places.length⟩, ?_, rfl⟩
  rw [Decimal.ofChars?, chars, whole]
  dsimp only
  rw [placesSpan_append]
  dsimp only
  rw [if_neg some_digit, exponentOf?_powerChars, Option.map_some]

theorem toLower_of_isDigit {c : Char} (digit : c.isDigit = true) : c.toLower = c := by
  simp only [Char.isDigit, Bool.and_eq_true, decide_eq_true_eq] at digit
  refine dif_neg fun upper => ?_
  exact absurd (UInt32.le_trans upper.1 digit.2) (by decide)

/-- A number is none of the names of special values. -/
theorem ofUnsigned?_chars : Double.ofUnsigned? m.chars = (Decimal.ofChars? m.chars).map Decimal.toFloat := by
  obtain ⟨c, cs, whole, digit⟩ := m.whole_spec.exists_cons
  -- a digit has no lower case, so that the name would begin with it
  have other : ∀ d : Char, d.isDigit = false → c.toLower ≠ d := by
    rintro d no_digit rfl
    rw [toLower_of_isDigit digit, digit] at no_digit
    cases no_digit
  rw [chars, whole]
  exact Double.ofUnsigned?_cons (other 'i' (by decide)) (other 'n' (by decide))

end Magnitude

/-! ## Written numbers -/

theorem exists_toDigits_eq {n : Nat} (pos : 0 < n) :
    ∃ c cs, Nat.toDigits 10 n = c :: cs ∧ c ≠ '0' := by
  induction n using Nat.strong_induction_on with
  | _ n ih =>
    rw [Nat.toDigits_eq_if (by decide)]
    split
    · exact ⟨_, _, rfl, by rw [Ne, Nat.digitChar_eq_zero]; omega⟩
    · obtain ⟨c, cs, eq, first⟩ := ih (n / 10) (by omega) (by omega)
      exact ⟨c, cs ++ [Nat.digitChar (n % 10)], by rw [eq, List.cons_append], first⟩

/-- The digits of a positive number do not begin with a zero, and stay so when digits follow. -/
theorem whole_toDigits_append {n : Nat} (pos : 0 < n) {ds : List Char}
    (digits : ∀ c ∈ ds, c.isDigit = true) : Whole (Nat.toDigits 10 n ++ ds) := by
  obtain ⟨c, cs, eq, first⟩ := exists_toDigits_eq pos
  rw [eq, List.cons_append]
  refine .digits first ?_
  rw [← List.cons_append, ← eq]
  exact List.forall_mem_append.2 ⟨fun _ => isDigit_of_mem_toDigits, digits⟩

theorem whole_toDigits (n : Nat) : Whole (Nat.toDigits 10 n) := by
  rcases Nat.eq_zero_or_pos n with rfl | pos
  · rw [Nat.toDigits_zero]
    exact .zero
  · have whole := whole_toDigits_append pos (List.forall_mem_nil fun c : Char => c.isDigit = true)
    rwa [List.append_nil] at whole

theorem whole_take_toDigits {n k : Nat} (pos : 0 < n) (hk : 0 < k) :
    Whole ((Nat.toDigits 10 n).take k) := by
  obtain ⟨c, cs, eq, first⟩ := exists_toDigits_eq pos
  obtain ⟨k, rfl⟩ := Nat.exists_eq_add_one.2 hk
  rw [eq, List.take_succ_cons]
  refine .digits first fun d hd => ?_
  rw [← List.take_succ_cons, ← eq] at hd
  exact isDigit_of_mem_toDigits (List.mem_of_mem_take hd)

/-! ## Written decimals -/

section Decimals

open Decimal (isDigit_of_mem_digits isDigit_of_mem_zeros natOfDigits_append_zeros natOfDigits_digits
  natOfDigits_zeros_append)

/-- The digits of a number with zeros in front, so that one digit stands before the last `k + 1`. -/
def padded (n k : Nat) : List Char :=
  List.replicate (k + 1 + 1 - Decimal.width ⟨n, .negSucc k⟩) '0' ++ Decimal.digits ⟨n, .negSucc k⟩

theorem lt_length_padded (n k : Nat) : k + 1 < (padded n k).length := by
  rw [padded, List.length_append, List.length_replicate, ← Decimal.width]
  omega

theorem isDigit_of_mem_padded {n k : Nat} {c : Char} (h : c ∈ padded n k) : c.isDigit = true :=
  (List.mem_append.1 h).elim isDigit_of_mem_zeros isDigit_of_mem_digits

theorem natOfDigits_padded (n k : Nat) : natOfDigits (padded n k) = n := by
  rw [padded, natOfDigits_zeros_append, natOfDigits_digits]

theorem whole_take_padded (n k : Nat) : Whole ((padded n k).take ((padded n k).length - (k + 1))) := by
  by_cases wide : k + 1 < Decimal.width ⟨n, .negSucc k⟩
  · -- no zeros stand in front, and the number has more than one digit
    have same : padded n k = Nat.toDigits 10 n := by
      rw [padded, Nat.sub_eq_zero_of_le wide, List.replicate_zero, List.nil_append]
      rfl
    have length : (padded n k).length = Decimal.width ⟨n, .negSucc k⟩ := congrArg List.length same
    rw [length, same]
    refine whole_take_toDigits (Nat.pos_of_ne_zero ?_) (by omega)
    rintro rfl
    exact absurd wide (by simp [Decimal.width, Decimal.digits])
  · -- the one digit before the point is a zero
    have one : (padded n k).length - (k + 1) = 1 := by
      rw [padded, List.length_append, List.length_replicate, ← Decimal.width]
      omega
    have zeros : k + 1 + 1 - Decimal.width ⟨n, .negSucc k⟩
        = (k + 1 - Decimal.width ⟨n, .negSucc k⟩) + 1 := by
      omega
    rw [one, padded, zeros, List.replicate_succ, List.cons_append, List.take_succ_cons, List.take_zero]
    exact .zero

/-- A decimal with places is written with its point among the digits. -/
theorem exists_placedChars_negSucc (n k : Nat) :
    ∃ m : Magnitude, m.chars = placedChars ⟨n, .negSucc k⟩ ∧ m.value = Decimal.value ⟨n, .negSucc k⟩ := by
  have long := lt_length_padded n k
  have places : ((padded n k).drop ((padded n k).length - (k + 1))).length = k + 1 := by
    rw [List.length_drop]
    omega
  have some_place : (padded n k).drop ((padded n k).length - (k + 1)) ≠ [] :=
    List.ne_nil_of_length_pos (by omega)
  refine ⟨⟨_, (padded n k).drop ((padded n k).length - (k + 1)), none, whole_take_padded n k,
    fun c hc => isDigit_of_mem_padded (List.mem_of_mem_drop hc)⟩, ?_, ?_⟩
  · rw [Magnitude.chars, placesChars, if_neg some_place, powerChars, List.append_nil]
    rfl
  · rw [Magnitude.value, Decimal.value, List.take_append_drop, natOfDigits_padded, places,
      Int.negSucc_eq]
    simp

/-- A decimal without places is written with one, a zero. -/
theorem exists_placedChars_ofNat (n e : Nat) :
    ∃ m : Magnitude, m.chars = placedChars ⟨n, .ofNat e⟩ ∧ m.value = Decimal.value ⟨n, .ofNat e⟩ := by
  have written : placedChars ⟨n, .ofNat e⟩
      = (if n = 0 then ['0'] else Nat.toDigits 10 n ++ List.replicate e '0') ++ ['.', '0'] :=
    if_pos (Int.natCast_nonneg e)
  rw [written]
  split
  · next zero =>
    refine ⟨⟨['0'], ['0'], none, .zero, List.forall_mem_singleton.2 (by decide)⟩, rfl, ?_⟩
    rw [zero, Magnitude.value, Decimal.value, show natOfDigits (['0'] ++ ['0']) = 0 from rfl]
    simp
  · next nonzero =>
    refine ⟨⟨Nat.toDigits 10 n ++ List.replicate e '0', ['0'], none,
      whole_toDigits_append (Nat.pos_of_ne_zero nonzero) fun _ => isDigit_of_mem_zeros,
      List.forall_mem_singleton.2 (by decide)⟩,
      by simp [Magnitude.chars, placesChars, powerChars], ?_⟩
    -- the one place is a zero, so that it only shifts the point
    have number : natOfDigits (Nat.toDigits 10 n ++ List.replicate e '0' ++ ['0']) = n * 10 ^ e * 10 := by
      have last := natOfDigits_append_zeros (Nat.toDigits 10 n ++ List.replicate e '0') 1
      rw [List.replicate_one, pow_one, natOfDigits_append_zeros] at last
      rw [last]
      exact congrArg (· * 10 ^ e * 10) (natOfDigits_digits ⟨n, 0⟩)
    rw [Magnitude.value, Decimal.value, number]
    simp

/-- With all digits in place there are a whole part and places, and no exponent. -/
theorem exists_placedChars (d : Decimal) :
    ∃ m : Magnitude, m.chars = placedChars d ∧ m.value = d.value := by
  obtain ⟨n, e⟩ := d
  cases e with
  | ofNat e => exact exists_placedChars_ofNat n e
  | negSucc k => exact exists_placedChars_negSucc n k

/-- With an exponent there is one digit before the point. -/
theorem exists_scientificChars {d : Decimal} (pos : 0 < d.coefficient) :
    ∃ m : Magnitude, m.chars = scientificChars d ∧ m.value = d.value := by
  have digit : ∀ c ∈ d.digits.drop 1, c.isDigit = true := fun c hc =>
    isDigit_of_mem_digits (List.mem_of_mem_drop hc)
  have width : 0 < d.width := Nat.length_toDigits_pos
  refine ⟨⟨d.digits.take 1, d.digits.drop 1, some (d.exponent + d.width - 1),
    whole_take_toDigits pos Nat.one_pos, digit⟩, ?_, ?_⟩
  · rw [scientificChars, Magnitude.chars, List.append_assoc]
    rfl
  · rw [Magnitude.value, Decimal.value, List.take_append_drop, natOfDigits_digits, List.length_drop,
      ← Decimal.width, Option.getD_some]
    congr 2
    omega

/-- **What is written for a decimal is a number of its value.** -/
theorem exists_magnitudeChars (d : Decimal) :
    ∃ m : Magnitude, m.chars = magnitudeChars d ∧ m.value = d.value := by
  rw [magnitudeChars]
  split
  · exact exists_placedChars d
  · next h => exact exists_scientificChars (Nat.pos_of_ne_zero fun zero => h (.inl zero))

end Decimals

/-! ## Written natural numbers and doubles -/

theorem numeral_toDigits (n : Nat) : Numeral (Nat.toDigits 10 n) := by
  refine ⟨false, { whole := Nat.toDigits 10 n, whole_spec := whole_toDigits n }, ?_⟩
  simp [signChars, Magnitude.chars, placesChars, powerChars]

/-- **A written natural number reads back**, up to the limit of what is read. -/
theorem nat?_ofNat (most n : Nat) : (ofNat n).nat? most = if n ≤ most then some n else none := by
  rw [ofNat, nat?, String.toList_ofList, natOfChars?_toDigits]

/-- A number with its sign is read as its magnitude with that sign. -/
theorem ofText?_chars (m : Magnitude) (negative : Bool) {x : Float}
    (read : Double.ofUnsigned? m.chars = some x) :
    Double.ofText? (String.ofList (signChars negative ++ m.chars))
      = some (if negative then -x else x) := by
  rw [Double.ofText?, String.toList_ofList]
  cases negative with
  | true =>
    show (Double.ofUnsigned? m.chars).map _ = _
    rw [read]
    rfl
  | false =>
    -- a number without its sign begins with a digit
    obtain ⟨c, head, digit⟩ := m.head?_chars []
    have unsigned : signChars false ++ m.chars = m.chars := rfl
    rw [List.append_nil] at head
    rw [unsigned]
    split
    · next cs eq =>
      rw [eq] at head
      obtain rfl : '-' = c := Option.some.inj head
      cases digit
    · next cs eq =>
      rw [eq] at head
      obtain rfl : '+' = c := Option.some.inj head
      cases digit
    · exact read

/-- **A finite double is written as a number that reads back**, also `-0`. -/
theorem ofFloat_eq_num {x : Float} (finite : x.isFinite = true) :
    ∃ spelling, ofFloat x = num spelling ∧ Numeral spelling.toList
      ∧ Double.ofText? spelling = some x := by
  obtain ⟨p, parts⟩ := Double.isFinite_iff_parts.1 finite
  obtain ⟨m, chars, value⟩ := exists_magnitudeChars (Decimal.shortest .even p)
  refine ⟨String.ofList (signChars p.negative ++ m.chars), ?_, ?_, ?_⟩
  · rw [ofFloat, parts, chars]
  · rw [String.toList_ofList]
    exact ⟨p.negative, m, rfl⟩
  · obtain ⟨d, read, same⟩ := m.ofChars?_chars
    have magnitude : Double.ofUnsigned? m.chars = some x.abs := by
      rw [m.ofUnsigned?_chars, read, Option.map_some, Decimal.toFloat_congr (same.trans value),
        Decimal.toFloat_shortest .even parts]
    rw [ofText?_chars m p.negative magnitude, Double.negative_of_parts parts]
    cases sign : Double.isNegative x with
    | true => rw [if_pos rfl, Double.neg_abs sign]
    | false => rw [if_neg Bool.false_ne_true, Double.abs_of_not_isNegative finite sign]

/-- A double without parts is written as no number. -/
theorem ofFloat_eq_null {x : Float} (infinite : x.isFinite = false) : ofFloat x = null := by
  have parts : Double.parts? x = none := by
    rw [Option.eq_none_iff_forall_ne_some]
    intro p h
    rw [Double.isFinite_iff_parts.2 ⟨p, h⟩] at infinite
    cases infinite
  rw [ofFloat, parts]

/-- **A written double reads back to the bit if it is finite, and not at all otherwise.** -/
theorem float?_ofFloat (x : Float) : (ofFloat x).float? = if x.isFinite then some x else none := by
  cases finite : x.isFinite with
  | true =>
    obtain ⟨spelling, written, -, read⟩ := ofFloat_eq_num finite
    rw [written, float?, read]
    exact if_pos finite
  | false =>
    rw [ofFloat_eq_null finite]
    rfl

end UnitCalc.Json
