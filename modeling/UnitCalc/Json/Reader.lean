import UnitCalc.Json.Literal
import UnitCalc.Json.Number

/-!
# `UnitCalc.Json.Reader` — JSON values from text

A text is read token by token. What has been read of the brackets that are still open is kept in a
list of frames, so that values may nest to any depth.

## Contents
- **Tokens.** `Token`, `token?`, with `length_token?_le`: a token takes at least its first character.
- **States.** `Frame`, `Expect`, `Reader`.
- **Steps.** `Reader.give`, `Reader.close`, `Reader.step`.
- **Texts.** `read?`.
-/

namespace UnitCalc.Json

/-! ## Tokens -/

/-- The words of JSON. -/
inductive Token where
  | openBrace | closeBrace | openBracket | closeBracket | colon | comma
  /-- A word or a number. -/
  | leaf (value : Json)
  /-- A string, which may be a value or a name. -/
  | name (text : Option String)

/-- Reads the letters of a word whose first letter has been read. -/
def wordRest? (letters : List Char) (value : Json) (cs : List Char) :
    Option (Token × List Char) :=
  if letters.isPrefixOf cs then some (.leaf value, cs.drop letters.length) else none

/-- The token that begins with `c`, and what follows it. -/
def token? (c : Char) (cs : List Char) : Option (Token × List Char) :=
  match c with
  | '\x7b' => some (.openBrace, cs)
  | '\x7d' => some (.closeBrace, cs)
  | '[' => some (.openBracket, cs)
  | ']' => some (.closeBracket, cs)
  | ':' => some (.colon, cs)
  | ',' => some (.comma, cs)
  | '"' => (readLiteral? {} cs).map fun (text, rest) => (.name text, rest)
  | 'n' => wordRest? ['u', 'l', 'l'] null cs
  | 't' => wordRest? ['r', 'u', 'e'] (bool true) cs
  | 'f' => wordRest? ['a', 'l', 's', 'e'] (bool false) cs
  | c =>
    (numeralSpan? (c :: cs)).map fun (spelling, rest) =>
      (.leaf (num (String.ofList spelling)), rest)

theorem length_readLiteral?_le {r : Reading} {cs rest : List Char} {text : Option String}
    (h : readLiteral? r cs = some (text, rest)) : rest.length ≤ cs.length := by
  fun_induction readLiteral? r cs <;> simp_all <;> omega

theorem length_wordRest?_le {letters cs rest : List Char} {value : Json} {t : Token}
    (h : wordRest? letters value cs = some (t, rest)) : rest.length ≤ cs.length := by
  unfold wordRest? at h
  split at h <;> simp_all
  obtain ⟨_, rfl⟩ := h
  simp

theorem length_digitSpan_le (cs : List Char) : (Text.digitSpan cs).2.length ≤ cs.length :=
  (List.dropWhile_sublist _).length_le

theorem length_signSpan_le (cs : List Char) : (Text.signSpan cs).2.length ≤ cs.length := by
  unfold Text.signSpan
  split <;> simp

theorem length_fractionSpan?_le {cs s rest : List Char} (h : fractionSpan? cs = some (s, rest)) :
    rest.length ≤ cs.length := by
  unfold fractionSpan? at h
  split at h
  · next r =>
    have shorter := length_digitSpan_le r
    simp only [Option.ite_none_left_eq_some, Option.some.injEq, Prod.mk.injEq] at h
    grind
  · grind

theorem length_powerSpan?_le {cs s rest : List Char} (h : powerSpan? cs = some (s, rest)) :
    rest.length ≤ cs.length := by
  unfold powerSpan? at h
  split at h
  · grind
  · next c r =>
    have shorter := length_digitSpan_le (Text.signSpan r).2
    have shortest := length_signSpan_le r
    grind

theorem length_wholeSpan?_lt {cs s rest : List Char} (h : wholeSpan? cs = some (s, rest)) :
    rest.length < cs.length := by
  unfold wholeSpan? at h
  split at h
  · simp at h
  · grind
  · next c r _ =>
    have shorter := length_digitSpan_le r
    split at h
    · next digit =>
      have tail : (Text.digitSpan (c :: r)).2 = (Text.digitSpan r).2 := List.dropWhile_cons_of_pos digit
      have left : (Text.digitSpan (c :: r)).2 = rest := congrArg Prod.snd (Option.some.inj h)
      rw [← left, tail, List.length_cons]
      omega
    · cases h

theorem length_numeralSpan?_lt {cs s rest : List Char} (h : numeralSpan? cs = some (s, rest)) :
    rest.length < cs.length := by
  simp only [numeralSpan?, bind, Option.bind_eq_some_iff, Prod.exists, pure, Option.some.injEq,
    Prod.mk.injEq] at h
  obtain ⟨_, r₁, whole, _, r₂, fraction, _, r₃, power, _, rfl⟩ := h
  have first := length_wholeSpan?_lt whole
  have second := length_fractionSpan?_le fraction
  have third := length_powerSpan?_le power
  have sign : (minusSpan cs).2.length ≤ cs.length := by
    unfold minusSpan
    split <;> simp
  omega

/-- A token takes its first character at least. -/
theorem length_token?_le {c : Char} {cs rest : List Char} {t : Token}
    (h : token? c cs = some (t, rest)) : rest.length ≤ cs.length := by
  unfold token? at h
  split at h
  case h_7 =>
    simp only [Option.map_eq_some_iff, Prod.exists, Prod.mk.injEq] at h
    obtain ⟨_, _, literal, _, rfl⟩ := h
    exact length_readLiteral?_le literal
  case h_8 => exact length_wordRest?_le h
  case h_9 => exact length_wordRest?_le h
  case h_10 => exact length_wordRest?_le h
  case h_11 =>
    simp only [Option.map_eq_some_iff, Prod.exists, Prod.mk.injEq] at h
    obtain ⟨_, _, numeral, _, rfl⟩ := h
    have shorter := length_numeralSpan?_lt numeral
    simp only [List.length_cons] at shorter
    omega
  all_goals
    simp only [Option.some.injEq, Prod.mk.injEq] at h
    obtain ⟨_, rfl⟩ := h
    exact Nat.le_refl _

/-! ## States -/

/-- A bracket that is still open, with what it holds so far, the last thing first. -/
inductive Frame where
  | items (done : List Json)
  | members (done : List (Option String × Json))
  /-- An object in which the value of a member is being read. -/
  | member (done : List (Option String × Json)) (name : Option String)

/-- What may come next. -/
inductive Expect where
  | value
  /-- A value, or the end of an array that is still empty. -/
  | firstItem
  /-- A name, or the end of an object that is still empty. -/
  | firstName
  | name
  | colon
  /-- A comma or the end of the innermost bracket. -/
  | more
  /-- Nothing: the value is complete. -/
  | done (value : Json)

/-- The state of reading. -/
structure Reader where
  expect : Expect
  /-- The open brackets, the innermost one first. -/
  frames : List Frame

namespace Reader

/-- Nothing has been read. -/
def start : Reader := ⟨.value, []⟩

/-! ## Steps -/

/-- A value is complete and belongs into the innermost bracket. -/
def give (value : Json) : List Frame → Option Reader
  | [] => some ⟨.done value, []⟩
  | .items done :: frames => some ⟨.more, .items (value :: done) :: frames⟩
  | .member done name :: frames => some ⟨.more, .members ((name, value) :: done) :: frames⟩
  | .members _ :: _ => none

/-- The innermost bracket is closed. -/
def close : Token → List Frame → Option Reader
  | .closeBracket, .items done :: frames => give (arr done.reverse) frames
  | .closeBrace, .members done :: frames => give (obj done.reverse) frames
  | _, _ => none

/-- The name of a member has been read. -/
def giveName (name : Option String) : List Frame → Option Reader
  | .members done :: frames => some ⟨.colon, .member done name :: frames⟩
  | _ => none

/-- A token where a value is expected. -/
def openValue : Token → List Frame → Option Reader
  | .openBracket, frames => some ⟨.firstItem, .items [] :: frames⟩
  | .openBrace, frames => some ⟨.firstName, .members [] :: frames⟩
  | .leaf value, frames => give value frames
  | .name text, frames => give (str text) frames
  | _, _ => none

/-- The state after one more token, or none when the token may not stand there. -/
def step (r : Reader) (t : Token) : Option Reader :=
  match r.expect, t with
  | .value, t => openValue t r.frames
  | .firstItem, .closeBracket => close .closeBracket r.frames
  | .firstItem, t => openValue t r.frames
  | .firstName, .closeBrace => close .closeBrace r.frames
  | .firstName, .name text => giveName text r.frames
  | .name, .name text => giveName text r.frames
  | .colon, .colon => some ⟨.value, r.frames⟩
  | .more, .comma =>
    match r.frames with
    | .items _ :: _ => some ⟨.value, r.frames⟩
    | .members _ :: _ => some ⟨.name, r.frames⟩
    | _ => none
  | .more, t => close t r.frames
  | _, _ => none

/-- The value, when it is complete. -/
def result (r : Reader) : Option Json :=
  match r.expect with
  | .done value => some value
  | _ => none

/-- Reads the rest of a text. -/
def run (r : Reader) : List Char → Option Json
  | [] => r.result
  | c :: cs =>
    if isSpace c then run r cs
    else
      match _h : token? c cs with
      | none => none
      | some (t, rest) =>
        match r.step t with
        | none => none
        | some r => run r rest
termination_by cs => cs.length
decreasing_by
  · simp
  · have shorter := length_token?_le _h
    simp only [List.length_cons]
    omega

end Reader

/-- The value that a text stands for, if it is JSON. -/
def read? (s : String) : Option Json :=
  Reader.start.run s.toList

end UnitCalc.Json
