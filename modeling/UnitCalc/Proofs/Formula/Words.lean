import UnitCalc.Formula.Lexer
import UnitCalc.Proofs.Decimal.ReadBack

/-!
# `Proofs.Formula.Words` — the words of a text, one after another

The tokens of a text without their offsets are its `words`. They depend on the characters alone, so the
words of a text that is put together from pieces can be found piece by piece, as long as no piece runs
into the next one: what follows a name or a number must be `Delimited`.
-/

namespace UnitCalc.Formula

/-- The tokens of a text without their offsets. -/
def words (s : String) : List Token :=
  (tokens s).map Located.token

/-- The words of the characters of a text. -/
def wordsOf (cs : List Char) : List Token :=
  (scan 0 cs).map Located.token

theorem words_eq (s : String) : words s = wordsOf s.toList :=
  rfl

theorem scan_nil (start : Nat) : scan start [] = [] := by
  rw [scan.eq_def]

/-- White space is skipped; anything else begins a lexeme. -/
theorem scan_cons (start : Nat) (c : Char) (cs : List Char) :
    scan start (c :: cs) =
      if Text.isBlank c then scan (start + c.utf8Size) cs
      else
        ⟨Token.ofLexeme c (lexeme c cs).1, start⟩ ::
          scan (start + byteLength (lexeme c cs).1) (lexeme c cs).2 := by
  rw [scan.eq_def]

/-- Where a text starts does not change its words. -/
theorem map_token_scan (start : Nat) (cs : List Char) :
    (scan start cs).map Located.token = wordsOf cs := by
  -- both offsets vary: the two scans are at different places from the first lexeme on
  suffices any : ∀ start start', (scan start cs).map Located.token = (scan start' cs).map Located.token from
    any start 0
  intro start
  induction start, cs using scan.induct with
  | case1 start =>
    intro start'
    rw [scan_nil, scan_nil]
  | case2 start c cs blank ih =>
    intro start'
    rw [scan_cons, if_pos blank, scan_cons, if_pos blank]
    exact ih _
  | case3 start c cs blank ih =>
    intro start'
    rw [scan_cons, if_neg blank, scan_cons, if_neg blank, List.map_cons, List.map_cons, ih]

@[simp] theorem wordsOf_nil : wordsOf [] = [] := by
  rw [wordsOf, scan_nil, List.map_nil]

theorem wordsOf_blank {c : Char} {cs : List Char} (blank : Text.isBlank c = true) :
    wordsOf (c :: cs) = wordsOf cs := by
  rw [wordsOf, scan_cons, if_pos blank, map_token_scan]

theorem wordsOf_lexeme {c : Char} {cs : List Char} (blank : Text.isBlank c = false) :
    wordsOf (c :: cs) = Token.ofLexeme c (lexeme c cs).1 :: wordsOf (lexeme c cs).2 := by
  rw [wordsOf, scan_cons, if_neg (by simp [blank]), List.map_cons, map_token_scan]

/-! ## What no text has among its words -/

/-- No lexeme stands for the end of the text. -/
theorem ofLexeme_ne_stop (c : Char) (word : List Char) : Token.ofLexeme c word ≠ .stop := by
  unfold Token.ofLexeme
  split <;> try simp
  split
  · split <;> simp
  · split <;> simp

theorem ofLexeme_eq_number {c : Char} {word : List Char} {x : Float}
    (h : Token.ofLexeme c word = .number x) : ∃ d : Decimal, x = d.toFloat := by
  unfold Token.ofLexeme at h
  split at h <;> try cases h
  split at h
  · split at h
    · next d _ => exact ⟨d, (Token.number.inj h).symm⟩
    · cases h
  · split at h <;> cases h

/-- Every word stands for some lexeme. -/
theorem exists_lexeme_of_mem {start : Nat} {cs : List Char} {t : Located} (h : t ∈ scan start cs) :
    ∃ c word, t.token = Token.ofLexeme c word := by
  induction start, cs using scan.induct with
  | case1 start =>
    rw [scan_nil] at h
    cases h
  | case2 start c cs blank ih =>
    rw [scan_cons, if_pos blank] at h
    exact ih h
  | case3 start c cs blank ih =>
    rw [scan_cons, if_neg blank] at h
    rcases List.mem_cons.1 h with rfl | h
    · exact ⟨_, _, rfl⟩
    · exact ih h

theorem stop_not_mem_words (s : String) : Token.stop ∉ words s := by
  intro h
  obtain ⟨t, ht, stop⟩ := List.mem_map.1 h
  obtain ⟨c, word, eq⟩ := exists_lexeme_of_mem ht
  exact ofLexeme_ne_stop c word (eq.symm.trans stop)

/-- **Number tokens are never negative**: a minus sign before a number is a token of its own. -/
theorem isNegative_of_mem_words {s : String} {x : Float} (h : Token.number x ∈ words s) :
    Double.isNegative x = false := by
  obtain ⟨t, ht, number⟩ := List.mem_map.1 h
  obtain ⟨c, word, eq⟩ := exists_lexeme_of_mem ht
  obtain ⟨d, rfl⟩ := ofLexeme_eq_number (eq.symm.trans number)
  exact d.isNegative_toFloat

/-! ## Words of a text put together from pieces -/

/-- No name and no number goes on into the text. -/
def Delimited (rest : List Char) : Prop :=
  ∀ c, rest.head? = some c → isNamePart c = false ∧ isNumberStart c = false

theorem delimited_nil : Delimited [] := by
  simp [Delimited]

theorem delimited_cons {c : Char} {cs : List Char} (name : isNamePart c = false)
    (number : isNumberStart c = false) : Delimited (c :: cs) := by
  rintro d ⟨⟩
  exact ⟨name, number⟩

/-- A character that starts neither a name nor a number is a word of its own. -/
theorem wordsOf_single {c : Char} {rest : List Char} (blank : Text.isBlank c = false)
    (name : isNameStart c = false) (number : isNumberStart c = false) :
    wordsOf (c :: rest) = Token.ofLexeme c [c] :: wordsOf rest := by
  rw [wordsOf_lexeme blank, lexeme, if_neg (by simp [number]), if_neg (by simp [name])]

theorem takeWhile_append_of_stop {p : Char → Bool} {cs rest : List Char} (all : ∀ c ∈ cs, p c = true)
    (stop : ∀ c, rest.head? = some c → p c = false) :
    (cs ++ rest).takeWhile p = cs ∧ (cs ++ rest).dropWhile p = rest := by
  rw [List.takeWhile_append_of_pos all, List.dropWhile_append_of_pos all]
  cases rest with
  | nil => simp
  | cons c rest =>
    have no : p c = false := stop c rfl
    simp [no]

/-- The visible characters of ASCII are not white space. -/
theorem not_isBlank_of_visible {c : Char} (low : 33 ≤ c.toNat) (high : c.toNat ≤ 126) :
    Text.isBlank c = false := by
  simp [Text.isBlank]
  omega

/-- What starts a name is neither white space nor the beginning of a number. -/
theorem isBlank_of_isNameStart {c : Char} (h : isNameStart c = true) :
    Text.isBlank c = false ∧ isNumberStart c = false := by
  -- letters and the underscore lie behind the digits and the point, and before the end of ASCII
  have range : 65 ≤ c.toNat ∧ c.toNat ≤ 122 := by
    simp only [isNameStart, Char.isAlpha, Char.isUpper, Char.isLower, Bool.or_eq_true,
      Bool.and_eq_true, decide_eq_true_eq, beq_iff_eq, ge_iff_le, UInt32.le_iff_toNat_le] at h
    rcases h with (h | h) | rfl
    · exact ⟨h.1, Nat.le_trans h.2 (by decide)⟩
    · exact ⟨Nat.le_trans (by decide) h.1, h.2⟩
    · decide
  refine ⟨not_isBlank_of_visible (by omega) (by omega), ?_⟩
  · simp only [isNumberStart, Char.isDigit, ge_iff_le, UInt32.le_iff_toNat_le, Bool.or_eq_false_iff,
      Bool.and_eq_false_iff, decide_eq_false_iff_not, beq_eq_false_iff_ne]
    refine ⟨.inr ?_, ?_⟩
    · intro le
      have top : c.toNat ≤ 57 := le
      omega
    · rintro rfl
      exact absurd range (by decide)

/-- A name is read as one word, in lower case. -/
theorem wordsOf_name {c : Char} {cs rest : List Char} (start : isNameStart c = true)
    (parts : ∀ d ∈ cs, isNamePart d = true) (delimited : Delimited rest) :
    wordsOf (c :: cs ++ rest)
      = .name (String.ofList ((c :: cs).map Char.toLower)) :: wordsOf rest := by
  obtain ⟨blank, number⟩ := isBlank_of_isNameStart start
  obtain ⟨taken, dropped⟩ := takeWhile_append_of_stop parts fun d hd => (delimited d hd).1
  rw [List.cons_append, wordsOf_lexeme blank, lexeme, if_neg (by simp [number]), if_pos start, taken,
    dropped]
  refine congrArg (· :: wordsOf rest) ?_
  unfold Token.ofLexeme
  split <;> try exact absurd start (by decide)
  rw [if_neg (by simp [number]), if_pos start]

/-- A letter or an underscore, and then these and digits. -/
def isName (s : String) : Bool :=
  match s.toList with
  | [] => false
  | c :: cs => isNameStart c && cs.all isNamePart

/-- The name as it is looked up. -/
def lowered (s : String) : String :=
  String.ofList (s.toList.map Char.toLower)

theorem wordsOf_string {s : String} {rest : List Char} (h : isName s = true)
    (delimited : Delimited rest) : wordsOf (s.toList ++ rest) = .name (lowered s) :: wordsOf rest := by
  rw [isName] at h
  rw [lowered]
  cases eq : s.toList with
  | nil => rw [eq] at h; cases h
  | cons c cs =>
    rw [eq, Bool.and_eq_true, List.all_eq_true] at h
    exact wordsOf_name h.1 h.2 delimited

/-- A number in plain notation is the longest number at the head of a text. -/
theorem numberSpan_plain {cs rest : List Char} {v : ℚ} (plain : Decimal.Plain cs v)
    (delimited : Delimited rest) : numberSpan (cs ++ rest) = (cs, rest) := by
  have no_digit : ∀ c, rest.head? = some c → c.isDigit = false := by
    intro c hc
    have h := (delimited c hc).2
    simp only [isNumberStart, Bool.or_eq_false_iff] at h
    exact h.1
  have no_exponent : Text.exponentSpan rest = ([], rest) := by
    cases rest with
    | nil => rfl
    | cons c rest =>
      have mark : Text.isExponentMark c = false := by
        -- the mark is a letter, and a name would go on into it
        have h := (delimited c rfl).1
        by_contra mark
        rw [Bool.not_eq_false, Text.isExponentMark, Bool.or_eq_true, beq_iff_eq, beq_iff_eq] at mark
        rcases mark with rfl | rfl <;> exact absurd h (by decide)
      simp [Text.exponentSpan, mark]
  have mantissa : mantissaSpan (cs ++ rest) = (cs, rest) := by
    cases plain with
    | whole some_digit digits =>
      rw [mantissaSpan, Decimal.digitSpan_append_of_digits digits no_digit]
      cases rest with
      | nil => rfl
      | cons c rest =>
        -- a point behind the digits would be read with them, and is excluded as a number's start
        have no_point : c ≠ '.' := by
          rintro rfl
          exact absurd (delimited '.' rfl).2 (by decide)
        split
        · next h => exact absurd (List.cons.inj (Prod.mk.inj h).2).1 no_point
        · next h => rw [(Prod.mk.inj h).1, (Prod.mk.inj h).2]
    | @point ds ps some_digit digits places =>
      rw [mantissaSpan, List.append_assoc, List.cons_append,
        Decimal.digitSpan_append_of_digits digits (by simp)]
      show (ds ++ '.' :: (Text.digitSpan (ps ++ rest)).1, (Text.digitSpan (ps ++ rest)).2) = _
      rw [Decimal.digitSpan_append_of_digits places no_digit]
  rw [numberSpan, mantissa, no_exponent, List.append_nil]

/-- A number in plain notation is read as one word. -/
theorem wordsOf_plain {cs rest : List Char} {v : ℚ} (plain : Decimal.Plain cs v)
    (delimited : Delimited rest) :
    ∃ d : Decimal, d.value = v ∧ wordsOf (cs ++ rest) = .number d.toFloat :: wordsOf rest := by
  obtain ⟨d, read, value⟩ := Decimal.ofChars?_plain plain
  have span := numberSpan_plain plain delimited
  obtain ⟨c, ds, rfl, digit⟩ : ∃ c ds, cs = c :: ds ∧ c.isDigit = true := by
    cases plain with
    | whole some_digit digits =>
      obtain ⟨c, ds, rfl⟩ := List.exists_cons_of_ne_nil some_digit
      exact ⟨c, ds, rfl, digits c List.mem_cons_self⟩
    | point some_digit digits _ =>
      obtain ⟨c, ds, rfl⟩ := List.exists_cons_of_ne_nil some_digit
      exact ⟨c, _, rfl, digits c List.mem_cons_self⟩
  have number : isNumberStart c = true := by simp [isNumberStart, digit]
  have blank : Text.isBlank c = false := by
    simp only [Char.isDigit, ge_iff_le, UInt32.le_iff_toNat_le, Bool.and_eq_true,
      decide_eq_true_eq] at digit
    exact not_isBlank_of_visible (Nat.le_trans (by decide) digit.1) (Nat.le_trans digit.2 (by decide))
  refine ⟨d, value, ?_⟩
  rw [List.cons_append] at span ⊢
  rw [wordsOf_lexeme blank, lexeme, if_pos number, span]
  refine congrArg (· :: wordsOf rest) ?_
  unfold Token.ofLexeme
  split <;> try exact absurd digit (by decide)
  rw [if_pos number, read]

end UnitCalc.Formula
