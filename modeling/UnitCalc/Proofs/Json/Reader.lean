import UnitCalc.Json.Reader
import UnitCalc.Proofs.Json.Literal
import UnitCalc.Proofs.Json.Number

/-!
# `Proofs.Json.Reader` — a written value reads back

The pretty layout of a value reads as that value, provided its numbers are numbers (`read?_pretty`).

The reader keeps its place in frames, and goes on after a value with the state that `give` makes of the
frames. So what is shown of the characters of a value is that they take the reader from any state that
expects a value to that state, whatever follows (`Reads`): the items of an array and the members of an
object are then read one after another, each in the frame that the ones before it have left.
-/

namespace UnitCalc.Json

/-- A value whose numbers are spelled as numbers. -/
inductive Spelled : Json → Prop
  | null : Spelled null
  | bool (b : Bool) : Spelled (bool b)
  | num {spelling : String} (h : Numeral spelling.toList) : Spelled (num spelling)
  | str (text : Option String) : Spelled (str text)
  | arr {items : List Json} (each : ∀ j ∈ items, Spelled j) : Spelled (arr items)
  | obj {members : List (Option String × Json)} (each : ∀ m ∈ members, Spelled m.2) :
      Spelled (obj members)

namespace Reader

variable {r : Reader} {c : Char} {cs rest : List Char} {t : Token} {frames : List Frame}

/-! ## One token -/

theorem run_nil (r : Reader) : r.run [] = r.result := by
  rw [run]

theorem run_space (space : isSpace c = true) : r.run (c :: cs) = r.run cs := by
  rw [run, if_pos space]

theorem run_token (space : isSpace c = false) (token : token? c cs = some (t, rest)) :
    r.run (c :: cs) = (r.step t).bind fun r => r.run rest := by
  rw [run, if_neg (by simp [space])]
  split
  · next no_token =>
    rw [token] at no_token
    cases no_token
  · next t' rest' eq =>
    obtain ⟨rfl, rfl⟩ := Prod.mk.inj (Option.some.inj (token.symm.trans eq))
    cases r.step t <;> rfl

theorem run_newLine (r : Reader) (depth : Nat) (cs : List Char) :
    r.run (newLine depth ++ cs) = r.run cs := by
  have spaces : ∀ n, r.run (List.replicate n ' ' ++ cs) = r.run cs := by
    intro n
    induction n with
    | zero => rfl
    | succ n ih =>
      rw [List.replicate_succ, List.cons_append, run_space (by decide)]
      exact ih
  rw [newLine, List.cons_append, run_space (by decide)]
  exact spaces _

theorem ended_newLine (depth : Nat) (cs : List Char) : Ended (newLine depth ++ cs) :=
  ended_cons (by decide) (by decide) (by decide)

/-! ## Values -/

/-- The reader is where a value may stand. -/
def ExpectsValue (r : Reader) : Prop :=
  r.expect = .value ∨ r.expect = .firstItem

/-- Where a value may stand, every token but the end of an array begins a value. -/
theorem step_eq_openValue (h : r.ExpectsValue) (inside : t ≠ .closeBracket) :
    r.step t = openValue t r.frames := by
  obtain ⟨expect, frames⟩ := r
  rcases h with h | h
  · obtain rfl : expect = .value := h
    cases t <;> rfl
  · obtain rfl : expect = .firstItem := h
    cases t with
    | closeBracket => exact absurd rfl inside
    | _ => rfl

/-- The characters are read as the value, wherever a value may stand and whatever follows. -/
def Reads (cs : List Char) (j : Json) : Prop :=
  ∀ (r : Reader) (rest : List Char), r.ExpectsValue → Ended rest →
    r.run (cs ++ rest) = (give j r.frames).bind fun r => r.run rest

/-- A value that is one token. -/
theorem Reads.token {j : Json} (space : isSpace c = false) (inside : t ≠ .closeBracket)
    (token : ∀ rest, Ended rest → token? c (cs ++ rest) = some (t, rest))
    (opened : ∀ frames, openValue t frames = give j frames) : Reads (c :: cs) j := by
  intro r rest expects ended
  rw [List.cons_append, run_token space (token rest ended), step_eq_openValue expects inside, opened]

theorem reads_null : Reads ['n', 'u', 'l', 'l'] null :=
  .token (t := .leaf null) (by decide) nofun (fun _ _ => rfl) fun _ => rfl

theorem reads_true : Reads ['t', 'r', 'u', 'e'] (bool true) :=
  .token (t := .leaf (bool true)) (by decide) nofun (fun _ _ => rfl) fun _ => rfl

theorem reads_false : Reads ['f', 'a', 'l', 's', 'e'] (bool false) :=
  .token (t := .leaf (bool false)) (by decide) nofun (fun _ _ => rfl) fun _ => rfl

theorem reads_num {spelling : String} (h : Numeral spelling.toList) :
    Reads spelling.toList (num spelling) := by
  obtain ⟨negative, m, eq⟩ := h
  -- a number begins with its sign or with a digit
  obtain ⟨c, cs, head, first⟩ : ∃ c cs, spelling.toList = c :: cs ∧ (c = '-' ∨ c.isDigit = true) := by
    obtain ⟨c, hc, digit⟩ := m.head?_chars []
    rw [List.append_nil] at hc
    rw [eq]
    cases negative with
    | true => exact ⟨'-', _, rfl, .inl rfl⟩
    | false =>
      obtain ⟨cs, chars⟩ := List.head?_eq_some_iff.1 hc
      exact ⟨c, cs, chars, .inr digit⟩
  have space : isSpace c = false := by
    simp only [isSpace, Bool.or_eq_false_iff, beq_eq_false_iff_ne]
    refine ⟨⟨⟨?_, ?_⟩, ?_⟩, ?_⟩ <;>
      · rintro rfl
        revert first
        decide
  rw [head]
  refine .token (t := .leaf (num spelling)) space nofun ?_ fun _ => rfl
  intro rest ended
  have cut : numeralSpan? (c :: (cs ++ rest)) = some (c :: cs, rest) := by
    have cut := m.numeralSpan?_chars negative ended
    rwa [← eq, head] at cut
  -- every other token begins with a character of its own
  unfold token?
  split
  case h_11 =>
    rw [cut, Option.map_some]
    dsimp only
    rw [← head, String.ofList_toList]
  all_goals exact absurd first (by decide)

theorem run_name (s : Option String) (rest : List Char) :
    r.run (nameChars s ++ rest) = (r.step (.name s)).bind fun r => r.run rest := by
  obtain ⟨cs, eq, read⟩ := exists_readLiteral?_nameChars s rest
  have token : token? '"' cs = some (.name s, rest) := by
    show (readLiteral? {} cs).map _ = _
    rw [read]
    rfl
  rw [eq, run_token (by decide) token]

theorem reads_str (s : Option String) : Reads (nameChars s) (str s) := by
  intro r rest expects ended
  rw [run_name, step_eq_openValue (t := .name s) expects nofun]
  rfl

/-! ## Arrays and objects -/

variable {depth inner : Nat}

/-- **The items of an array** are read up to its end, in the frame that the ones before have left. -/
theorem run_items {items : List Json} (some_item : items ≠ [])
    (each : ∀ j ∈ items, Reads (prettyChars inner j) j) {done : List Json}
    (expects : r.ExpectsValue) (frame : r.frames = .items done :: frames) (rest : List Char) :
    r.run (prettyItems inner items ++ (newLine depth ++ ']' :: rest))
      = (give (arr (done.reverse ++ items)) frames).bind fun r => r.run rest := by
  induction items generalizing r done with
  | nil => exact absurd rfl some_item
  | cons j js ih =>
    have read := each j List.mem_cons_self r
    have given : give j r.frames = some ⟨.more, .items (j :: done) :: frames⟩ := by
      rw [frame]
      rfl
    cases js with
    | nil =>
      have close : (⟨.more, .items (j :: done) :: frames⟩ : Reader).step .closeBracket
          = give (arr (done.reverse ++ [j])) frames := by
        rw [← List.reverse_cons]
        rfl
      rw [prettyItems, List.append_assoc, run_newLine, read _ expects (ended_newLine depth _), given,
        Option.bind_some, run_newLine, run_token (t := .closeBracket) (by decide) rfl, close]
    | cons k ks =>
      have comma : (⟨.more, .items (j :: done) :: frames⟩ : Reader).step .comma
          = some ⟨.value, .items (j :: done) :: frames⟩ := rfl
      rw [prettyItems, List.append_assoc, List.append_assoc, run_newLine, List.cons_append,
        read _ expects (ended_cons (by decide) (by decide) (by decide)), given, Option.bind_some,
        run_token (t := .comma) (by decide) rfl, comma, Option.bind_some,
        ih (List.cons_ne_nil k ks) (fun i hi => each i (List.mem_cons_of_mem j hi)) (.inl rfl) rfl,
        List.reverse_cons, List.append_assoc, List.singleton_append]
      exact nofun

/-- **The members of an object** are read up to its end, in the frame that the ones before have left. -/
theorem run_members {members : List (Option String × Json)} (some_member : members ≠ [])
    (each : ∀ m ∈ members, Reads (prettyChars inner m.2) m.2) {done : List (Option String × Json)}
    (expects : r.expect = .firstName ∨ r.expect = .name) (frame : r.frames = .members done :: frames)
    (rest : List Char) :
    r.run (prettyMembers inner members ++ (newLine depth ++ '\x7d' :: rest))
      = (give (obj (done.reverse ++ members)) frames).bind fun r => r.run rest := by
  induction members generalizing r done with
  | nil => exact absurd rfl some_member
  | cons m ms ih =>
    obtain ⟨name, j⟩ := m
    obtain ⟨expect, _⟩ := r
    obtain rfl := frame
    have named : (⟨expect, .members done :: frames⟩ : Reader).step (.name name)
        = some ⟨.colon, .member done name :: frames⟩ := by
      rcases expects with h | h <;>
        · obtain rfl := h
          rfl
    have colon : (⟨.colon, .member done name :: frames⟩ : Reader).step .colon
        = some ⟨.value, .member done name :: frames⟩ := rfl
    have read := each (name, j) List.mem_cons_self ⟨.value, .member done name :: frames⟩
    have given : give j (.member done name :: frames)
        = some ⟨.more, .members ((name, j) :: done) :: frames⟩ := rfl
    cases ms with
    | nil =>
      have close : (⟨.more, .members ((name, j) :: done) :: frames⟩ : Reader).step .closeBrace
          = give (obj (done.reverse ++ [(name, j)])) frames := by
        rw [← List.reverse_cons]
        rfl
      rw [prettyMembers, List.append_assoc, List.append_assoc, run_newLine, run_name, named,
        Option.bind_some, List.cons_append, run_token (t := .colon) (by decide) rfl, colon,
        Option.bind_some, List.cons_append, run_space (by decide),
        read _ (.inl rfl) (ended_newLine depth _), given, Option.bind_some, run_newLine,
        run_token (t := .closeBrace) (by decide) rfl, close]
    | cons k ks =>
      have comma : (⟨.more, .members ((name, j) :: done) :: frames⟩ : Reader).step .comma
          = some ⟨.name, .members ((name, j) :: done) :: frames⟩ := rfl
      rw [prettyMembers, List.append_assoc, List.append_assoc, List.append_assoc, run_newLine, run_name,
        named, Option.bind_some, List.cons_append, run_token (t := .colon) (by decide) rfl, colon,
        Option.bind_some, List.cons_append, run_space (by decide), List.cons_append,
        read _ (.inl rfl) (ended_cons (by decide) (by decide) (by decide)), given, Option.bind_some,
        run_token (t := .comma) (by decide) rfl, comma, Option.bind_some,
        ih (List.cons_ne_nil k ks) (fun i hi => each i (List.mem_cons_of_mem _ hi)) (.inr rfl) rfl,
        List.reverse_cons, List.append_assoc, List.singleton_append]
      exact nofun

/-- An array is read as one value. -/
theorem reads_arr {items : List Json}
    (each : ∀ j ∈ items, Reads (prettyChars (depth + 1) j) j) :
    Reads (prettyChars depth (arr items)) (arr items) := by
  intro r rest expects ended
  have opened : r.step .openBracket = some ⟨.firstItem, .items [] :: r.frames⟩ :=
    step_eq_openValue expects nofun
  cases items with
  | nil =>
    have close : (⟨.firstItem, .items [] :: r.frames⟩ : Reader).step .closeBracket
        = give (arr []) r.frames := rfl
    show r.run ('[' :: ']' :: rest) = _
    rw [run_token (t := .openBracket) (by decide) rfl, opened, Option.bind_some,
      run_token (t := .closeBracket) (by decide) rfl, close]
  | cons j js =>
    have written : prettyChars depth (arr (j :: js)) ++ rest
        = '[' :: (prettyItems (depth + 1) (j :: js) ++ (newLine depth ++ ']' :: rest)) := by
      rw [prettyChars, if_neg (by simp)]
      simp only [List.cons_append, List.append_assoc, List.nil_append]
    rw [written, run_token (t := .openBracket) (by decide) rfl, opened, Option.bind_some,
      run_items (List.cons_ne_nil j js) each (.inr rfl) rfl]
    rfl

/-- An object is read as one value. -/
theorem reads_obj {members : List (Option String × Json)}
    (each : ∀ m ∈ members, Reads (prettyChars (depth + 1) m.2) m.2) :
    Reads (prettyChars depth (obj members)) (obj members) := by
  intro r rest expects ended
  have opened : r.step .openBrace = some ⟨.firstName, .members [] :: r.frames⟩ :=
    step_eq_openValue expects nofun
  cases members with
  | nil =>
    have close : (⟨.firstName, .members [] :: r.frames⟩ : Reader).step .closeBrace
        = give (obj []) r.frames := rfl
    show r.run ('\x7b' :: '\x7d' :: rest) = _
    rw [run_token (t := .openBrace) (by decide) rfl, opened, Option.bind_some,
      run_token (t := .closeBrace) (by decide) rfl, close]
  | cons m ms =>
    have written : prettyChars depth (obj (m :: ms)) ++ rest
        = '\x7b' :: (prettyMembers (depth + 1) (m :: ms) ++ (newLine depth ++ '\x7d' :: rest)) := by
      rw [prettyChars, if_neg (by simp)]
      simp only [List.cons_append, List.append_assoc, List.nil_append]
    rw [written, run_token (t := .openBrace) (by decide) rfl, opened, Option.bind_some,
      run_members (List.cons_ne_nil m ms) each (.inl rfl) rfl]
    rfl

end Reader

/-! ## Texts -/

/-- **A value is read where it is written**, at any depth. -/
theorem reads_prettyChars {j : Json} (h : Spelled j) (depth : Nat) :
    Reader.Reads (prettyChars depth j) j := by
  induction h generalizing depth with
  | null => exact Reader.reads_null
  | bool b =>
    cases b with
    | true => exact Reader.reads_true
    | false => exact Reader.reads_false
  | num h => exact Reader.reads_num h
  | str text => exact Reader.reads_str text
  | arr _ ih => exact Reader.reads_arr fun j hj => ih j hj (depth + 1)
  | obj _ ih => exact Reader.reads_obj fun m hm => ih m hm (depth + 1)

/-- **The pretty layout of a value reads back.** -/
theorem read?_pretty {j : Json} (h : Spelled j) : read? j.pretty = some j := by
  have read := reads_prettyChars h 0 .start [] (.inl rfl) ended_nil
  rw [List.append_nil] at read
  rw [read?, pretty, String.toList_ofList, read]
  show Reader.run ⟨.done j, []⟩ [] = some j
  rw [Reader.run_nil]
  rfl

end UnitCalc.Json
