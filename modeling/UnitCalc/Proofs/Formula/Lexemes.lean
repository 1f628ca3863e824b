import UnitCalc.Proofs.Formula.Recasing

/-!
# `Proofs.Formula.Lexemes` — every lexeme is the longest word of its kind

The kinds of words are defined here without the spans that cut them: numbers, names, operators, points that
belong to no number, and other characters (`Munched`). The lexeme at the head of a text is the longest word of
its kind with which the text begins, and its token is what this word stands for (`munched_lexeme`).

A number is put together from digits, a fraction and an exponent. Where words of two kinds follow each other, the
longest first word and then the longest second word are the longest of both (`Longest.append`), as long as no
character of the first word can start a second one: otherwise a shorter first word might leave room for a longer
whole.
-/

namespace UnitCalc.Formula

open Text (isBlank isExponentMark digitSpan digitSpan_append signSpan signSpan_append exponentSpan)

variable {k l : List Char → Prop} {text rest u v w : List Char} {c : Char}

/-! ## Longest words -/

/-- The text begins with the word, and with no longer word of its kind. -/
structure Longest (kind : List Char → Prop) (text word : List Char) : Prop where
  fits : kind word
  begins : word <+: text
  longest : ∀ u, kind u → u <+: text → u.length ≤ word.length

/-- Every word of the kind with which the text begins is the beginning of the longest one. -/
theorem Longest.isPrefix (h : Longest k text w) (fits : k u) (begins : u <+: text) : u <+: w :=
  List.prefix_of_prefix_length_le begins h.begins (h.longest u fits begins)

/-- A longest word that is of a narrower kind is the longest of that kind. -/
theorem Longest.narrow (h : Longest k text w) (fits : l w) (narrower : ∀ u, l u → k u) : Longest l text w :=
  ⟨fits, h.begins, fun u hu => h.longest u (narrower u hu)⟩

/-- A word of one kind, and behind it a word of another kind. -/
def Joined (k l : List Char → Prop) (word : List Char) : Prop :=
  ∃ u v, word = u ++ v ∧ k u ∧ l v

/-- **The longest word behind the longest word is the longest of both**, if no character of the first one can
    start the second one. -/
theorem Longest.append (first : Longest k (u ++ rest) u) (second : Longest l rest v)
    (apart : ∀ c ∈ u, ∀ cs, ¬ l (c :: cs)) : Longest (Joined k l) (u ++ rest) (u ++ v) := by
  refine ⟨⟨u, v, rfl, first.fits, second.fits⟩, (List.prefix_append_right_inj u).2 second.begins, ?_⟩
  rintro _ ⟨u', v', rfl, hu, hv⟩ begins
  obtain ⟨t, rfl⟩ := first.isPrefix hu ((List.prefix_append u' v').trans begins)
  rw [List.append_assoc, List.prefix_append_right_inj] at begins
  cases t with
  | nil =>
    have short := second.longest v' hv begins
    simpa using short
  | cons d t =>
    -- the first word could have been longer, so that nothing can follow it
    cases v' with
    | nil =>
      simp only [List.append_nil, List.length_append]
      omega
    | cons e cs =>
      obtain ⟨rfl, -⟩ := List.cons_prefix_cons.1 begins
      exact absurd hv (apart e (by simp) cs)

/-- The longest run of characters of a class. -/
theorem longest_takeWhile (p : Char → Bool) (cs : List Char) :
    Longest (fun word => ∀ c ∈ word, p c = true) cs (cs.takeWhile p) := by
  refine ⟨List.all_eq_true.1 List.all_takeWhile, List.takeWhile_prefix p, ?_⟩
  rintro u all ⟨t, rfl⟩
  rw [List.takeWhile_append_of_pos all, List.length_append]
  omega

/-! ## Numbers -/

/-- Digits only, perhaps none. -/
def IsDigits (word : List Char) : Prop :=
  ∀ c ∈ word, c.isDigit = true

/-- Nothing, or a point and digits. -/
inductive IsFraction : List Char → Prop
  | none : IsFraction []
  | point {ds : List Char} (digits : IsDigits ds) : IsFraction ('.' :: ds)

/-- Digits with at most one point among them. -/
def IsMantissa : List Char → Prop :=
  Joined IsDigits IsFraction

/-- Nothing or one sign. -/
inductive IsOptionalSign : List Char → Prop
  | none : IsOptionalSign []
  | sign {s : Char} (sign : isSign s = true) : IsOptionalSign [s]

/-- Nothing, or an exponent: a mark, perhaps a sign, and at least one digit. -/
inductive IsExponent : List Char → Prop
  | none : IsExponent []
  | mark {m : Char} {sign ds : List Char} (mark : isExponentMark m = true) (optional : IsOptionalSign sign)
      (some_digit : ds ≠ []) (digits : IsDigits ds) : IsExponent (m :: sign ++ ds)

/-- A mantissa with at least one digit, and perhaps an exponent. -/
def IsNumber : List Char → Prop :=
  Joined (fun m => IsMantissa m ∧ ∃ d ∈ m, d.isDigit = true) IsExponent

/-- A point alone, and perhaps an exponent. -/
def IsBarePoint : List Char → Prop :=
  Joined (· = ['.']) IsExponent

theorem longest_digitSpan (cs : List Char) : Longest IsDigits cs (digitSpan cs).1 :=
  longest_takeWhile Char.isDigit cs

theorem longest_fractionSpan (no_digit : ∀ c, rest.head? = some c → c.isDigit = false) :
    Longest IsFraction rest (fractionSpan rest).1 := by
  by_cases point : rest.head? = some '.'
  · obtain ⟨cs, rfl⟩ := List.head?_eq_some_iff.1 point
    have cut : (fractionSpan ('.' :: cs)).1 = '.' :: (digitSpan cs).1 := rfl
    have digits := longest_digitSpan cs
    rw [cut]
    refine ⟨.point digits.fits, List.cons_prefix_cons.2 ⟨rfl, digits.begins⟩, ?_⟩
    rintro u (_ | places) begins
    · exact Nat.zero_le _
    · exact Nat.succ_le_succ (digits.longest _ places (List.cons_prefix_cons.1 begins).2)
  · have none : optionSpan isPoint rest = ([], rest) := by
      refine optionSpan_of_head fun c hc => ?_
      rw [isPoint, beq_eq_false_iff_ne]
      rintro rfl
      exact point hc
    have cut : (fractionSpan rest).1 = [] := by
      rw [fractionSpan, none, digitSpan_of_head no_digit]
      rfl
    rw [cut]
    refine ⟨.none, List.nil_prefix, ?_⟩
    rintro u (_ | places) begins
    · exact Nat.le_refl _
    · obtain ⟨t, rfl⟩ := begins
      exact absurd rfl point

theorem longest_mantissaSpan (cs : List Char) : Longest IsMantissa cs (mantissaSpan cs).1 := by
  have digits := longest_digitSpan cs
  have fraction := longest_fractionSpan (head_digitSpan cs)
  rw [mantissaSpan_eq]
  generalize digitSpan cs = cut, digitSpan_append cs = whole at digits fraction
  obtain ⟨ds, rest⟩ := cut
  obtain rfl : ds ++ rest = cs := whole
  refine digits.append fraction fun c hc cs point => ?_
  cases point
  exact absurd (digits.fits '.' hc) (by decide)

theorem IsMantissa.mem (h : IsMantissa w) (hc : c ∈ w) : c.isDigit = true ∨ c = '.' := by
  obtain ⟨ds, f, rfl, digits, fraction⟩ := h
  rcases List.mem_append.1 hc with hc | hc
  · exact .inl (digits c hc)
  · cases fraction with
    | none => cases hc
    | point places => exact (List.mem_cons.1 hc).symm.imp_left (places c)

theorem IsExponent.head {cs : List Char} (h : IsExponent (c :: cs)) : isExponentMark c = true := by
  generalize eq : c :: cs = word at h
  cases h with
  | none => cases eq
  | mark mark _ _ _ => rwa [(List.cons.inj eq).1]

/-- An optional sign is cut off what begins with it and goes on with a digit. -/
theorem signSpan_append_digits {sign ds : List Char} (h : IsOptionalSign sign) (some_digit : ds ≠ [])
    (digits : IsDigits ds) (rest : List Char) : signSpan (sign ++ (ds ++ rest)) = (sign, ds ++ rest) := by
  obtain ⟨d, ds, rfl⟩ := List.exists_cons_of_ne_nil some_digit
  have no_sign : isSign d = false := by
    by_contra sign
    have digit := digits d List.mem_cons_self
    rcases isSign_iff.1 (by simpa using sign) with rfl | rfl <;> exact absurd digit (by decide)
  rw [signSpan_eq]
  cases h with
  | none =>
    refine optionSpan_of_head ?_
    rintro c ⟨⟩
    exact no_sign
  | sign sign => exact if_pos sign

theorem isOptionalSign_signSpan (cs : List Char) : IsOptionalSign (signSpan cs).1 := by
  unfold signSpan
  split
  · exact .sign (by decide)
  · exact .sign (by decide)
  · exact .none

theorem longest_exponentSpan (cs : List Char) : Longest IsExponent cs (exponentSpan cs).1 := by
  by_cases exponent : HasExponent cs
  · obtain ⟨m, cs, rfl, mark, some_digit⟩ := exponent
    have digits := longest_digitSpan (signSpan cs).2
    rw [exponentSpan_of_some mark some_digit]
    refine ⟨.mark mark (isOptionalSign_signSpan cs) some_digit digits.fits, ?_, ?_⟩
    · refine ⟨(digitSpan (signSpan cs).2).2, ?_⟩
      rw [List.append_assoc, digitSpan_append, List.cons_append, signSpan_append]
    · rintro u (_ | @⟨_, sign, ds, -, optional, some_digit', digits'⟩) begins
      · exact Nat.zero_le _
      · obtain ⟨t, whole⟩ := begins
        rw [List.cons_append, List.cons_append, List.append_assoc] at whole
        obtain ⟨-, rfl⟩ := List.cons.inj whole
        rw [signSpan_append_digits optional some_digit' digits'] at digits ⊢
        dsimp only at digits ⊢
        have short := digits.longest ds digits' (List.prefix_append ds t)
        simp only [List.length_append, List.length_cons]
        omega
  · rw [exponentSpan_of_none exponent]
    refine ⟨.none, List.nil_prefix, ?_⟩
    rintro u (_ | @⟨m, sign, ds, mark, optional, some_digit, digits⟩) begins
    · exact Nat.le_refl _
    · obtain ⟨t, rfl⟩ := begins
      refine absurd ⟨m, sign ++ (ds ++ t), by simp, mark, ?_⟩ exponent
      rw [signSpan_append_digits optional some_digit digits]
      have long := (longest_digitSpan (ds ++ t)).longest ds digits (List.prefix_append ds t)
      exact List.ne_nil_of_length_pos (Nat.lt_of_lt_of_le (List.length_pos_iff.2 some_digit) long)

theorem longest_numberSpan (cs : List Char) :
    Longest (Joined IsMantissa IsExponent) cs (numberSpan cs).1 := by
  have mantissa := longest_mantissaSpan cs
  have exponent := longest_exponentSpan (mantissaSpan cs).2
  rw [numberSpan]
  generalize mantissaSpan cs = cut, mantissaSpan_append cs = whole at mantissa exponent
  obtain ⟨m, rest⟩ := cut
  obtain rfl : m ++ rest = cs := whole
  refine mantissa.append exponent fun c hc cs follows => ?_
  -- a mantissa has no letters
  have mark := follows.head
  rcases mantissa.fits.mem hc with digit | rfl
  · rw [isExponentMark, Bool.or_eq_true, beq_iff_eq, beq_iff_eq] at mark
    rcases mark with rfl | rfl <;> exact absurd digit (by decide)
  · exact absurd mark (by decide)

/-! ## What numbers stand for -/

theorem exists_exponentOf? (h : IsExponent w) : ∃ n, Decimal.exponentOf? w = some n := by
  cases h with
  | none => exact ⟨0, rfl⟩
  | @mark m sign ds mark optional some_digit digits =>
    have cut := signSpan_append_digits optional some_digit digits []
    rw [List.append_nil] at cut
    have read : Decimal.natOfChars? ds = some (Decimal.natOfDigits ds) :=
      if_pos ⟨some_digit, List.all_eq_true.2 digits⟩
    rw [List.cons_append, Decimal.exponentOf?, if_pos mark, cut, read]
    exact ⟨_, rfl⟩

theorem IsExponent.head_ne (h : IsExponent w) :
    ∀ c, w.head? = some c → c.isDigit = false ∧ isPoint c = false := by
  intro c hc
  obtain ⟨cs, rfl⟩ := List.head?_eq_some_iff.1 hc
  have mark := h.head
  rw [isExponentMark, Bool.or_eq_true, beq_iff_eq, beq_iff_eq] at mark
  rcases mark with rfl | rfl <;> decide

theorem exists_isDigit_iff {ds : List Char} (digits : IsDigits ds) : (∃ d ∈ ds, d.isDigit = true) ↔ ds ≠ [] :=
  ⟨fun ⟨_, hd, _⟩ => List.ne_nil_of_mem hd, fun some_digit =>
    ⟨ds.head some_digit, List.head_mem some_digit, digits _ (List.head_mem some_digit)⟩⟩

/-- A mantissa and an exponent are read as a number if the mantissa has a digit. -/
theorem isSome_ofChars? {m e : List Char} (mantissa : IsMantissa m) (exponent : IsExponent e) :
    (Decimal.ofChars? (m ++ e)).isSome = true ↔ ∃ d ∈ m, d.isDigit = true := by
  obtain ⟨ds, f, rfl, digits, fraction⟩ := mantissa
  obtain ⟨n, read⟩ := exists_exponentOf? exponent
  have behind := exponent.head_ne
  cases fraction with
  | none =>
    have whole : digitSpan (ds ++ e) = (ds, e) :=
      Decimal.digitSpan_append_of_digits digits fun c hc => (behind c hc).1
    have places : Decimal.placesSpan e = ([], e) := by
      cases e with
      | nil => rfl
      | cons c e => exact placesSpan_of_ne (behind c rfl).2
    rw [List.append_nil, exists_isDigit_iff digits]
    simp [Decimal.ofChars?, whole, places, read]
  | @point ps digits' =>
    have whole : digitSpan (ds ++ '.' :: (ps ++ e)) = (ds, '.' :: (ps ++ e)) :=
      Decimal.digitSpan_append_of_digits digits (by simp)
    have places : Decimal.placesSpan ('.' :: (ps ++ e)) = (ps, e) :=
      Decimal.digitSpan_append_of_digits digits' fun c hc => (behind c hc).1
    have digit : (∃ d ∈ ds ++ '.' :: ps, d.isDigit = true) ↔ ∃ d ∈ ds ++ ps, d.isDigit = true := by
      simp [or_and_right, exists_or]
    rw [digit, exists_isDigit_iff (List.forall_mem_append.2 ⟨digits, digits'⟩), List.append_assoc,
      List.cons_append]
    simp [Decimal.ofChars?, whole, places, read]

/-- What begins with a digit or a point has no sign and is no name of a special value. -/
theorem ofText?_of_isNumberStart {cs : List Char} (start : isNumberStart c = true) :
    Double.ofText? (String.ofList (c :: cs)) = (Decimal.ofChars? (c :: cs)).map Decimal.toFloat := by
  have other : ∀ d : Char, isNumberStart d = false → c.toLower ≠ d.toLower := by
    intro d no_number recased
    rw [caseBlind_isNumberStart recased, no_number] at start
    cases start
  rw [Double.ofText?, String.toList_ofList]
  split
  · next eq => cases eq; exact absurd start (by decide)
  · next eq => cases eq; exact absurd start (by decide)
  · exact Double.ofUnsigned?_cons (other 'i' (by decide)) (other 'n' (by decide))

/-! ## Words and their tokens -/

/-- The operators and the marks between arguments. -/
def operators : List (Char × Token) :=
  [('+', .plus), ('-', .minus), ('*', .times), ('/', .slash), ('^', .caret), ('(', .openParen),
    (')', .closeParen), (',', .comma)]

/-- The text begins with the word as its longest one of a kind, and the word stands for the token. -/
inductive Munched (text : List Char) : List Char → Token → Prop
  | number {word : List Char} {x : Float} (longest : Longest IsNumber text word)
      (value : Double.ofText? (String.ofList word) = some x) : Munched text word (.number x)
  | name {word : List Char} (longest : Longest (fun u => isName (String.ofList u) = true) text word) :
      Munched text word (.name (lowered (String.ofList word)))
  | operator {c : Char} {t : Token} (first : text.head? = some c) (operator : (c, t) ∈ operators) :
      Munched text [c] t
  | barePoint {word : List Char} (no_digit : ∀ c, text.tail.head? = some c → c.isDigit = false)
      (longest : Longest IsBarePoint text word) : Munched text word (.illegal '.')
  | other {c : Char} (first : text.head? = some c) (no_number : isNumberStart c = false)
      (no_name : isNameStart c = false) (no_operator : c ∉ operators.map Prod.fst) :
      Munched text [c] (.illegal c)

section Lexeme

variable {cs : List Char}

theorem ofLexeme_of_isNumberStart (start : isNumberStart c = true) (word : List Char) :
    Token.ofLexeme c word = (Decimal.ofChars? word).elim (.illegal c) fun d => .number d.toFloat := by
  unfold Token.ofLexeme
  split <;> try exact absurd start (by decide)
  rw [if_pos start]
  cases Decimal.ofChars? word <;> rfl

theorem ofLexeme_of_isNameStart (start : isNameStart c = true) (word : List Char) :
    Token.ofLexeme c word = .name (String.ofList (word.map Char.toLower)) := by
  have no_number := (isBlank_of_isNameStart start).2
  unfold Token.ofLexeme
  split <;> try exact absurd start (by decide)
  rw [if_neg (by simp [no_number]), if_pos start]

/-- A mantissa without digits is a point. -/
theorem IsMantissa.eq_point (h : IsMantissa w) (no_digit : ¬ ∃ d ∈ w, d.isDigit = true) (some_char : w ≠ []) :
    w = ['.'] := by
  obtain ⟨ds, f, rfl, digits, fraction⟩ := h
  have none : ∀ {ds' : List Char}, IsDigits ds' → ds' ⊆ ds ++ f → ds' = [] := by
    intro ds' digits' part
    by_contra some_digit
    obtain ⟨d, hd, digit⟩ := (exists_isDigit_iff digits').2 some_digit
    exact no_digit ⟨d, part hd, digit⟩
  cases fraction with
  | none =>
    rw [none digits (List.subset_append_left _ _)] at some_char
    exact absurd rfl some_char
  | point places =>
    rw [none digits (List.subset_append_left _ _),
      none places (List.Subset.trans (List.subset_cons_self _ _) (List.subset_append_right _ _))]
    rfl

/-- What a digit or a point starts is a number, or a point that belongs to none. -/
theorem munched_number (start : isNumberStart c = true) :
    Munched (c :: cs) (numberSpan (c :: cs)).1 (Token.ofLexeme c (numberSpan (c :: cs)).1) := by
  have longest := longest_numberSpan (c :: cs)
  have mantissa := longest_mantissaSpan (c :: cs)
  have exponent := (longest_exponentSpan (mantissaSpan (c :: cs)).2).fits
  have some_char : (mantissaSpan (c :: cs)).1 ≠ [] := mantissaSpan_ne_nil start
  rw [ofLexeme_of_isNumberStart start]
  have parts : (numberSpan (c :: cs)).1
      = (mantissaSpan (c :: cs)).1 ++ (exponentSpan (mantissaSpan (c :: cs)).2).1 := rfl
  rw [parts] at longest ⊢
  generalize (exponentSpan (mantissaSpan (c :: cs)).2).1 = e at exponent longest ⊢
  generalize (mantissaSpan (c :: cs)).1 = m at mantissa some_char longest ⊢
  -- the word begins with the first character of the text
  obtain ⟨c', m', rfl⟩ := List.exists_cons_of_ne_nil some_char
  obtain ⟨rfl, -⟩ := List.cons_prefix_cons.1 mantissa.begins
  have read := isSome_ofChars? mantissa.fits exponent
  by_cases digit : ∃ d ∈ c' :: m', d.isDigit = true
  · obtain ⟨d, value⟩ := Option.isSome_iff_exists.1 (read.2 digit)
    rw [value]
    refine .number (longest.narrow ⟨_, _, rfl, ⟨mantissa.fits, digit⟩, exponent⟩ ?_) ?_
    · rintro u ⟨m, e, rfl, ⟨hm, -⟩, he⟩
      exact ⟨m, e, rfl, hm, he⟩
    · rw [List.cons_append] at value ⊢
      rw [ofText?_of_isNumberStart start, value]
      rfl
  · have value : Decimal.ofChars? (c' :: m' ++ e) = none := by
      rw [← Option.not_isSome_iff_eq_none, read]
      exact digit
    have point := mantissa.fits.eq_point digit some_char
    obtain ⟨rfl, rfl⟩ := List.cons.inj point
    rw [value]
    refine .barePoint ?_ (longest.narrow ⟨_, _, rfl, rfl, exponent⟩ ?_)
    · -- a digit behind the point would belong to a longer mantissa
      intro d hd
      obtain ⟨cs, rfl⟩ := List.head?_eq_some_iff.1 hd
      by_contra digit'
      have fits : IsMantissa ['.', d] :=
        ⟨[], ['.', d], rfl, nofun, .point (List.forall_mem_singleton.2 (by simpa using digit'))⟩
      exact Nat.not_succ_le_self 1 (mantissa.longest _ fits ⟨cs, rfl⟩)
    · rintro u ⟨m, e, rfl, rfl, he⟩
      exact ⟨['.'], e, rfl, ⟨[], ['.'], rfl, nofun, .point nofun⟩, he⟩

theorem isName_ofList {word : List Char} : isName (String.ofList word) = true
    ↔ ∃ c cs, word = c :: cs ∧ isNameStart c = true ∧ ∀ d ∈ cs, isNamePart d = true := by
  rw [isName, String.toList_ofList]
  cases word <;> simp

/-- What a letter or an underscore starts is a name. -/
theorem munched_name (start : isNameStart c = true) :
    Munched (c :: cs) (c :: cs.takeWhile isNamePart) (Token.ofLexeme c (c :: cs.takeWhile isNamePart)) := by
  have parts := longest_takeWhile isNamePart cs
  have token : Token.ofLexeme c (c :: cs.takeWhile isNamePart)
      = .name (lowered (String.ofList (c :: cs.takeWhile isNamePart))) := by
    rw [ofLexeme_of_isNameStart start, lowered, String.toList_ofList]
  rw [token]
  refine .name ⟨isName_ofList.2 ⟨_, _, rfl, start, parts.fits⟩, List.cons_prefix_cons.2 ⟨rfl, parts.begins⟩, ?_⟩
  intro u hu begins
  obtain ⟨d, ds, rfl, -, hd⟩ := isName_ofList.1 hu
  exact Nat.succ_le_succ (parts.longest ds hd (List.cons_prefix_cons.1 begins).2)

/-- Anything else is an operator or an illegal character. -/
theorem munched_single (no_number : isNumberStart c = false) (no_name : isNameStart c = false) :
    Munched (c :: cs) [c] (Token.ofLexeme c [c]) := by
  by_cases operator : c ∈ operators.map Prod.fst
  · obtain ⟨⟨c, t⟩, mem, rfl⟩ := List.mem_map.1 operator
    have all : ∀ p ∈ operators, Token.ofLexeme p.1 [p.1] = p.2 := by
      decide
    rw [all (c, t) mem]
    exact .operator rfl mem
  · have token : Token.ofLexeme c [c] = .illegal c := by
      unfold Token.ofLexeme
      split <;> try exact absurd (by decide) operator
      rw [if_neg (by simp [no_number]), if_neg (by simp [no_name])]
    rw [token]
    exact .other rfl no_number no_name operator

/-- **The lexeme at the head of a text is the longest word of its kind**, and its token is what the word stands
    for. -/
theorem munched_lexeme (c : Char) (cs : List Char) :
    Munched (c :: cs) (lexeme c cs).1 (Token.ofLexeme c (lexeme c cs).1) := by
  rw [lexeme]
  by_cases number : isNumberStart c = true
  · rw [if_pos number]
    exact munched_number number
  · rw [if_neg number]
    by_cases name : isNameStart c = true
    · rw [if_pos name]
      exact munched_name name
    · rw [if_neg name]
      exact munched_single (by simpa using number) (by simpa using name)

end Lexeme

end UnitCalc.Formula
