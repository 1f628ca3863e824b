import UnitCalc.Json.Printer

/-!
# `Proofs.Json.Literal` — a string literal reads back

The literal of a text reads as that text, whatever stands behind it (`exists_readLiteral?_nameChars`).
Reading is judged one written character at a time: what a character is escaped as adds exactly that
character to what has been read.
-/

namespace UnitCalc.Json

/-! ## One step of reading -/

theorem readLiteral?_quotation (r : Reading) (cs : List Char) :
    readLiteral? r ('"' :: cs) = some (r.text, cs) := by
  rw [readLiteral?]

theorem readLiteral?_unit {r : Reading} {a b c d : Char} {cs : List Char} {n : Nat}
    (h : unitOfHex? a b c d = some n) :
    readLiteral? r ('\\' :: 'u' :: a :: b :: c :: d :: cs) = readLiteral? (r.unit n) cs := by
  rw [readLiteral?, h]

theorem readLiteral?_escaped {r : Reading} {e c : Char} {cs : List Char} (h : charOfEscape? e = some c) :
    readLiteral? r ('\\' :: e :: cs) = readLiteral? (r.char c) cs := by
  have letter : e ≠ 'u' := by
    rintro rfl
    cases h
  rw [readLiteral?, h]
  intro _ _ _ _ _ eq
  exact absurd eq letter

theorem readLiteral?_plain {r : Reading} {c : Char} {cs : List Char} (quotation : c ≠ '"')
    (backslash : c ≠ '\\') (visible : 0x20 ≤ c.toNat) :
    readLiteral? r (c :: cs) = readLiteral? (r.char c) cs := by
  rw [readLiteral?]
  · rw [if_neg]
    rintro (h | h)
    · exact backslash h
    · omega
  all_goals
    intros
    simp_all

/-! ## Written characters -/

/-- A control character is named by two digits. -/
theorem unitOfHex?_hexPair {n : Nat} (h : n < 0x20) :
    unitOfHex? '0' '0' (Nat.digitChar (n / 16 % 16)) (Nat.digitChar (n % 16)) = some n := by
  have all : ∀ m : Fin 32, unitOfHex? '0' '0' (Nat.digitChar (m / 16 % 16)) (Nat.digitChar (m % 16))
      = some m.val := by
    decide
  exact all ⟨n, h⟩

/-- The unit of a control character is that character. -/
theorem Reading.unit_control {r : Reading} {c : Char} (idle : r.high = none) (h : c.toNat < 0x20) :
    r.unit c.toNat = r.char c := by
  have high : isHighHalf c.toNat = false := by
    simp [isHighHalf]
    omega
  have low : isLowHalf c.toNat = false := by
    simp [isLowHalf]
    omega
  rw [Reading.unit, Reading.char, idle]
  simp [high, low, Char.ofNat_toNat]

/-- **A written character is read as itself.** -/
theorem readLiteral?_escape {r : Reading} (idle : r.high = none) (c : Char) (cs : List Char) :
    readLiteral? r (escape c ++ cs) = readLiteral? (r.char c) cs := by
  unfold escape
  split
  case h_8 c quotation backslash _ _ _ _ _ =>
    split
    · next control =>
      show readLiteral? r ('\\' :: 'u' :: '0' :: '0' :: _ :: _ :: cs) = _
      rw [readLiteral?_unit (unitOfHex?_hexPair control), Reading.unit_control idle control]
    · next visible => exact readLiteral?_plain quotation backslash (Nat.le_of_not_lt visible)
  all_goals exact readLiteral?_escaped rfl

/-! ## Literals -/

/-- What has been read so far is text. -/
def Reading.ofChars (cs : List Char) : Reading :=
  { chars := cs.reverse }

theorem Reading.char_ofChars (cs : List Char) (c : Char) :
    (Reading.ofChars cs).char c = .ofChars (cs ++ [c]) := by
  simp [Reading.ofChars, Reading.char]

theorem Reading.text_ofChars (cs : List Char) :
    (Reading.ofChars cs).text = some (String.ofList cs) := by
  simp [Reading.ofChars, Reading.text]

theorem readLiteral?_escapes (read cs rest : List Char) :
    readLiteral? (.ofChars read) (cs.flatMap escape ++ '"' :: rest)
      = some (some (String.ofList (read ++ cs)), rest) := by
  induction cs generalizing read with
  | nil => rw [List.flatMap_nil, List.nil_append, readLiteral?_quotation, Reading.text_ofChars,
      List.append_nil]
  | cons c cs ih =>
    rw [List.flatMap_cons, List.append_assoc, readLiteral?_escape rfl, Reading.char_ofChars, ih,
      List.append_assoc, List.singleton_append]

/-- **The literal of a string reads back**, also where the string is no text. -/
theorem exists_readLiteral?_nameChars (s : Option String) (rest : List Char) :
    ∃ cs, nameChars s ++ rest = '"' :: cs ∧ readLiteral? {} cs = some (s, rest) := by
  cases s with
  | none =>
    -- the literal names the first half of a surrogate pair, and ends there
    have half : unitOfHex? 'd' '8' '0' '0' = some 0xd800 := rfl
    refine ⟨'\\' :: 'u' :: 'd' :: '8' :: '0' :: '0' :: '"' :: rest, rfl, ?_⟩
    rw [readLiteral?_unit half, readLiteral?_quotation]
    rfl
  | some s =>
    refine ⟨s.toList.flatMap escape ++ '"' :: rest, ?_, ?_⟩
    · unfold nameChars
      dsimp only
      rw [quote, List.cons_append, List.cons_append, List.append_assoc, List.singleton_append]
    · have read := readLiteral?_escapes [] s.toList rest
      rwa [List.nil_append, String.ofList_toList] at read

end UnitCalc.Json
