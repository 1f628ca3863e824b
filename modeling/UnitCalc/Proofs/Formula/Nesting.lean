import UnitCalc.Proofs.Formula.Budget
import UnitCalc.Proofs.Formula.Words

/-!
# `Proofs.Formula.Nesting` — the level of nesting is accounted for

Three rules count a level before they read something and give it back afterwards, whatever has been read. Only
a level beyond the limit is not given back, and then the parser stops: an error has one refused level to its
account if it says that the text nests too deep, and none otherwise (`refused`).

`Counted` says this of a parser, together with the levels that it may show on the way. It holds of the small
steps, and of the rules by induction on the budget. `Session.parse` can be called again and again, and its calls
inherit what every call keeps (`Session.Reused`); so the counter is accounted for throughout (`parse_again`).
-/

namespace UnitCalc.Formula

/-! ## Accounts -/

/-- The levels that an error leaves counted: the one that was refused. -/
def ParseError.refused (limit : Nat) (e : ParseError) : Int :=
  if e.fault = .nestsTooDeep limit then 1 else 0

def Stop.refused (limit : Nat) : Stop → Int
  | .error e => e.refused limit
  | .exhausted => 0

/-- The levels that a result leaves counted. -/
def leftover {ε α : Type} (levels : ε → Int) : Except ε α → Int
  | .ok _ => 0
  | .error e => levels e

theorem ParseError.refused_bounds (limit : Nat) (e : ParseError) : 0 ≤ e.refused limit ∧ e.refused limit ≤ 1 := by
  rw [ParseError.refused]
  split <;> decide

/-- One level can be left counted at most. -/
theorem leftover_bounds {α : Type} (limit : Nat) (r : Except Stop α) :
    0 ≤ leftover (Stop.refused limit) r ∧ leftover (Stop.refused limit) r ≤ 1 := by
  obtain ⟨e | _⟩ | a := r
  · exact e.refused_bounds limit
  · exact ⟨Int.le_refl 0, Int.one_nonneg⟩
  · exact ⟨Int.le_refl 0, Int.one_nonneg⟩

namespace Session

/-- The session goes on to the other one: some tokens are passed, `extra` levels are left counted, the level has
not been below the first one, and it has been one level beyond the limit, or beyond the first one, at most. -/
structure Counts (limit : Nat) (s : Session) (extra : Int) (s' : Session) : Prop where
  rest : s'.rest <:+ s.rest
  stop : s'.stop = s.stop
  level : s'.nesting.level = s.nesting.level + extra
  lowest : min s.nesting.lowest s.nesting.level ≤ s'.nesting.lowest
  highest : s'.nesting.highest ≤ max s.nesting.highest (max (limit : Int) s.nesting.level + 1)

variable {limit : Nat} {s s' s'' : Session} {extra : Int}

theorem Counts.refl (s : Session) : s.Counts limit 0 s :=
  ⟨List.suffix_refl _, rfl, (Int.add_zero _).symm, Int.min_le_left _ _, Int.le_max_left _ _⟩

/-- Where the first session leaves nothing counted, the second one goes on from its level. -/
theorem Counts.trans (h : s.Counts limit 0 s') (h' : s'.Counts limit extra s'') : s.Counts limit extra s'' := by
  obtain ⟨rest, stop, level, lowest, highest⟩ := h
  obtain ⟨rest', stop', level', lowest', highest'⟩ := h'
  rw [Int.add_zero] at level
  rw [level] at level' lowest' highest'
  exact ⟨rest'.trans rest, stop'.trans stop, level', by omega, by omega⟩

theorem counts_advance (s : Session) : s.Counts limit 0 s.advance :=
  { Counts.refl s with rest := List.tail_suffix _ }

end Session

/-! ## Parsers that count -/

namespace Parser

variable {α β : Type} {limit : Nat}

/-- Whatever the parser comes to, it leaves as many levels counted as its result says. -/
def Counted (limit : Nat) (p : Parser α) : Prop :=
  ∀ s : Session, s.Counts limit (leftover (Stop.refused limit) (p s).1) (p s).2

theorem counted_bind {p : Parser α} {f : α → Parser β} (hp : Counted limit p)
    (hf : ∀ a, Counted limit (f a)) : Counted limit (p >>= f) := by
  intro s
  show s.Counts limit (leftover (Stop.refused limit) (andThen p f s).1) (andThen p f s).2
  have first := hp s
  rw [andThen]
  generalize p s = run at first ⊢
  obtain ⟨_ | a, s'⟩ := run
  · exact first
  · exact first.trans (hf a s')

theorem counted_current : Counted limit current :=
  fun s => .refl s

theorem counted_position : Counted limit position :=
  fun s => .refl s

theorem counted_remaining : Counted limit remaining :=
  fun s => .refl s

theorem counted_advance : Counted limit advance :=
  fun s => s.counts_advance

theorem counted_done (a : α) : Counted limit (done a) :=
  fun s => .refl s

/-- A fault other than nesting leaves nothing counted. -/
theorem leftover_error {fault : ParseFault} (other : fault ≠ .nestsTooDeep limit) (n : Nat) :
    leftover (α := α) (Stop.refused limit) (.error (.error ⟨fault, n⟩)) = 0 :=
  if_neg other

theorem counted_failAt {fault : ParseFault} (other : fault ≠ .nestsTooDeep limit) (n : Nat) :
    Counted limit (failAt (α := α) fault n) := by
  intro s
  rw [failAt, leftover_error other]
  exact .refl s

theorem counted_fail {fault : ParseFault} (other : fault ≠ .nestsTooDeep limit) :
    Counted limit (fail (α := α) fault) := by
  intro s
  rw [fail, leftover_error other]
  exact .refl s

theorem counted_exhausted : Counted limit (exhausted (α := α)) :=
  fun s => .refl s

/-- **A level is given back unless it is refused.** -/
theorem counted_nested {p : Parser α} (inside : Counted limit p) : Counted limit (nested limit p) := by
  intro s
  simp only [nested]
  have run := inside { s with nesting := s.nesting.enter }
  by_cases beyond : (limit : Int) < s.nesting.enter.level
  · rw [if_pos beyond]
    have one : leftover (α := α) (Stop.refused limit) (.error (.error ⟨.nestsTooDeep limit, s.position⟩)) = 1 :=
      if_pos rfl
    refine ⟨List.suffix_refl _, rfl, one ▸ rfl, ?_, ?_⟩ <;> simp only [fail, Gauge.enter, Gauge.set] <;> omega
  · rw [if_neg beyond]
    generalize p { s with nesting := s.nesting.enter } = outcome at run ⊢
    obtain ⟨result, s'⟩ := outcome
    obtain ⟨rest, stop, level, lowest, highest⟩ := run
    have one := leftover_bounds limit result
    simp only [Gauge.enter, Gauge.set] at beyond level lowest highest
    -- the level inside is allowed, so that nothing further in is more than one beyond the limit
    refine ⟨rest, stop, ?_, ?_, ?_⟩ <;> simp only [Gauge.leave, Gauge.set]
    · omega
    · omega
    · omega

theorem counted_node (e : Expr) : Counted limit (node limit e) := by
  rw [node]
  split
  · exact counted_fail (by simp)
  · exact counted_done e

theorem counted_closeParen : Counted limit closeParen := by
  refine counted_bind counted_current fun t => ?_
  split
  · exact counted_advance
  · exact counted_fail (by simp)
  · exact counted_fail (by simp)

theorem counted_chain {operator? : Token → Option BinOp} {operand : Parser Expr}
    (each : Counted limit operand) (turns : Nat) (left : Expr) :
    Counted limit (chain limit operator? operand turns left) := by
  induction turns generalizing left with
  | zero => exact counted_done left
  | succ turns ih =>
    refine counted_bind counted_current fun t => ?_
    split
    · exact counted_done left
    · refine counted_bind counted_advance fun _ => counted_bind each fun right => ?_
      exact counted_bind (counted_node _) ih

section Arguments

variable {argument : Parser Expr}

theorem counted_moreArguments (each : Counted limit argument) (turns : Nat) :
    Counted limit (moreArguments argument turns) := by
  induction turns with
  | zero => exact counted_done []
  | succ turns ih =>
    refine counted_bind counted_current fun t => ?_
    split
    · refine counted_bind counted_advance fun _ => counted_bind each fun e => ?_
      exact counted_bind ih fun es => counted_done _
    · exact counted_done []

theorem counted_arguments (each : Counted limit argument) : Counted limit (arguments argument) := by
  refine counted_bind counted_current fun t => ?_
  split
  · exact counted_done []
  · refine counted_bind each fun e => counted_bind counted_remaining fun turns => ?_
    exact counted_bind (counted_moreArguments each turns) fun es => counted_done _

end Arguments

end Parser

/-! ## Rules -/

namespace Rule

open Formula.Parser

variable {limit : Nat} {use : Rule → Parser Expr}

/-- **A rule counts its levels if the rules it uses do.** -/
theorem counted_step (uses : ∀ rule, Counted limit (use rule)) (rule : Rule) :
    Counted limit (step limit use rule) := by
  cases rule with
  | expression => exact counted_nested (uses additive)
  | additive =>
    refine counted_bind (uses multiplicative) fun left => counted_bind counted_remaining fun turns => ?_
    exact counted_chain (uses multiplicative) turns left
  | multiplicative =>
    refine counted_bind (uses unary) fun left => counted_bind counted_remaining fun turns => ?_
    exact counted_chain (uses unary) turns left
  | unary =>
    refine counted_bind counted_current fun t => ?_
    split
    · refine counted_bind counted_advance fun _ => counted_bind (counted_nested (uses unary)) fun e => ?_
      exact counted_node _
    · exact uses power
  | power =>
    refine counted_bind (uses primary) fun base => counted_bind counted_current fun t => ?_
    split
    · refine counted_bind counted_advance fun _ => counted_bind (counted_nested (uses unary)) fun e => ?_
      exact counted_node _
    · exact counted_done base
  | primary =>
    refine counted_bind counted_current fun t => ?_
    cases t with
    | number x =>
      dsimp only
      split
      · exact counted_bind counted_advance fun _ => counted_done _
      · exact counted_fail (by simp)
    | name text => exact uses (name text)
    | openParen =>
      refine counted_bind counted_advance fun _ => counted_bind (uses expression) fun e => ?_
      exact counted_bind counted_closeParen fun _ => counted_done e
    | _ => exact counted_fail (by simp)
  | name text =>
    rw [step]
    split
    · exact counted_bind counted_advance fun _ => counted_done _
    · exact counted_bind counted_advance fun _ => counted_done _
    · next f _ _ _ =>
      refine counted_bind counted_position fun start => counted_bind counted_advance fun _ => ?_
      refine counted_bind counted_current fun t => ?_
      split
      · exact uses (call f start)
      · exact counted_fail (by simp)
    · exact counted_fail (by simp)
  | call f start =>
    refine counted_bind counted_advance fun _ => counted_bind (counted_arguments (uses expression)) ?_
    refine fun args => counted_bind counted_closeParen fun _ => ?_
    split
    · exact counted_node _
    · exact counted_failAt (by simp) start

theorem counted_within (limit budget : Nat) (rule : Rule) : Counted limit (within limit budget rule) := by
  induction budget generalizing rule with
  | zero => exact counted_exhausted
  | succ budget ih => exact counted_step ih rule

end Rule

/-! ## Formulas -/

namespace Parser

variable {limit : Nat}

theorem counted_formula (limit budget : Nat) : Counted limit (formula limit budget) := by
  refine counted_bind counted_current fun t => ?_
  split
  · exact counted_fail (by simp)
  · refine counted_bind (Rule.counted_within limit budget .expression) fun e => ?_
    refine counted_bind counted_current fun t => ?_
    split
    · exact counted_done e
    · exact counted_fail (by simp)
    · exact counted_fail (by simp)

/-- Two steps that succeed together succeed one after the other. -/
theorem exists_of_bind {α β : Type} {p : Parser α} {f : α → Parser β} {s s' : Session} {b : β}
    (run : (p >>= f) s = (.ok b, s')) : ∃ a t, p s = (.ok a, t) ∧ f a t = (.ok b, s') := by
  replace run : andThen p f s = (.ok b, s') := run
  rw [andThen] at run
  split at run
  · next a t first => exact ⟨a, t, first, run⟩
  · cases run

/-- A formula ends with the text. -/
theorem current_of_formula {budget : Nat} {s s' : Session} {e : Expr}
    (run : formula limit budget s = (.ok e, s')) : s'.current = .stop := by
  obtain ⟨first, t, -, run⟩ := exists_of_bind run
  by_cases empty : first = .stop
  · rw [if_pos empty] at run
    cases run
  · rw [if_neg empty] at run
    obtain ⟨tree, t, -, run⟩ := exists_of_bind run
    obtain ⟨found, _, seen, run⟩ := exists_of_bind run
    obtain ⟨ended, rfl⟩ : t.current = found ∧ t = _ := by simpa [current] using seen
    cases found with
    | stop =>
      obtain rfl : t = s' := (Prod.mk.inj run).2
      exact ended
    | _ => cases run

end Parser

namespace Session

variable {limit : Nat} {text : String} {s s' : Session} {extra : Int}

/-- **A call leaves as many levels counted as its result says.** -/
theorem counts_parse (limit : Nat) (s : Session) :
    s.Counts limit (leftover (ParseError.refused limit) (s.parse limit).1) (s.parse limit).2 := by
  have run := Parser.counted_formula limit s.budget s
  have lasts := (lasts_budget limit s).ne_exhausted
  rw [parse]
  generalize Parser.formula limit s.budget s = outcome at run lasts ⊢
  obtain ⟨(e | _) | tree, s'⟩ := outcome
  · exact run
  · exact absurd rfl lasts
  · exact run

/-- What a call has read to the end leaves nothing current. -/
theorem current_of_parse {e : Expr} (read : (s.parse limit).1 = .ok e) : (s.parse limit).2.current = .stop := by
  rw [parse] at read ⊢
  split at read
  · next run => exact Parser.current_of_formula run
  · cases read
  · cases read

/-- Where the text has ended there is no other formula, and nothing happens. -/
theorem parse_of_nil (limit : Nat) (ended : s.rest = []) : s.parse limit = (.error ⟨.empty, s.stop⟩, s) := by
  have current : s.current = .stop := by rw [Session.current, ended]
  have position : s.position = s.stop := by rw [Session.position, ended]
  have run : Parser.formula limit s.budget s = (.error (.error ⟨.empty, s.stop⟩), s) := by
    show (if s.current = .stop then Parser.fail .empty else _) s = _
    rw [if_pos current, Parser.fail, position]
  rw [parse, run]

/-! ## One call after another -/

/-- The session after some calls, each of which goes on where the one before it stopped. -/
def afterCalls (limit : Nat) (s : Session) : Nat → Session
  | 0 => s
  | n + 1 => ((s.afterCalls limit n).parse limit).2

/-- What every call keeps: some tokens of the text are left, and no level was shown below zero or more than one
beyond the limit and beyond the present level. -/
structure Reused (limit : Nat) (text : String) (s : Session) : Prop where
  rest : s.rest <:+ tokens text
  stop : s.stop = byteLength text.toList
  lowest : 0 ≤ s.nesting.lowest
  level : 0 ≤ s.nesting.level
  highest : s.nesting.highest ≤ max (limit : Int) s.nesting.level + 1

theorem reused_ofText (limit : Nat) (text : String) : (ofText text).Reused limit text := by
  refine ⟨List.suffix_refl _, rfl, Int.le_refl 0, Int.le_refl 0, ?_⟩
  simp only [ofText, Gauge.resting]
  omega

theorem Reused.counts (reused : s.Reused limit text) (counts : s.Counts limit extra s') (some : 0 ≤ extra) :
    s'.Reused limit text := by
  obtain ⟨rest, stop, lowest, level, highest⟩ := reused
  obtain ⟨rest', stop', level', lowest', highest'⟩ := counts
  exact ⟨rest'.trans rest, stop'.trans stop, by omega, by omega, by omega⟩

theorem Reused.parse (reused : s.Reused limit text) : (s.parse limit).2.Reused limit text := by
  have some : 0 ≤ leftover (ParseError.refused limit) (s.parse limit).1 := by
    cases (s.parse limit).1 with
    | ok e => exact Int.le_refl 0
    | error e => exact (e.refused_bounds limit).1
  exact reused.counts (counts_parse limit s) some

theorem reused_afterCalls (limit : Nat) (text : String) (n : Nat) :
    ((ofText text).afterCalls limit n).Reused limit text := by
  induction n with
  | zero => exact reused_ofText limit text
  | succ n ih => exact ih.parse

/-- No token of a text is its end, so that the end is where no token is left. -/
theorem Reused.rest_eq_nil (reused : s.Reused limit text) (ended : s.current = .stop) : s.rest = [] := by
  rw [current] at ended
  split at ended
  · next none => exact none
  · next t rest some =>
    have found : t ∈ tokens text := reused.rest.subset (some ▸ List.mem_cons_self)
    exact absurd (ended ▸ List.mem_map_of_mem found) (stop_not_mem_words text)

/-- Where the text has ended, all further calls stay. -/
theorem afterCalls_of_nil {n : Nat} (ended : (s.afterCalls limit n).rest = []) {m : Nat} (later : n ≤ m) :
    s.afterCalls limit m = s.afterCalls limit n := by
  induction later with
  | refl => rfl
  | step _ ih => rw [afterCalls, ih, parse_of_nil limit ended]

/-- **The level of nesting is accounted for** in every call of a parser that is called again and again, whatever
the text and the limit. The level has never been below zero, and up to the end of a call it has been one more
than the limit, or than its value before the call, at most. Afterwards it is what it was before, and one more if
the call failed because the text nests too deep. Once a call has read a formula, every later one finds the
text at its end. -/
theorem parse_again (limit : Nat) (text : String) (n : Nat) :
    let before := (ofText text).afterCalls limit n
    let call := before.parse limit
    0 ≤ call.2.nesting.lowest ∧ call.2.nesting.highest ≤ max (limit : Int) before.nesting.level + 1 ∧
      call.2.nesting.level = before.nesting.level + leftover (ParseError.refused limit) call.1 ∧
      ∀ e, call.1 = .ok e → ∀ m, n < m →
        (((ofText text).afterCalls limit m).parse limit).1 = .error ⟨.empty, byteLength text.toList⟩ := by
  intro before call
  have reused : before.Reused limit text := reused_afterCalls limit text n
  have counts := counts_parse limit before
  have later : call.2.Reused limit text := reused.parse
  refine ⟨later.lowest, ?_, counts.level, ?_⟩
  · have highest : call.2.nesting.highest ≤ max before.nesting.highest _ := counts.highest
    have shown := reused.highest
    omega
  · intro e read m after
    have ended : ((ofText text).afterCalls limit (n + 1)).rest = [] := later.rest_eq_nil (current_of_parse read)
    rw [afterCalls_of_nil ended after, parse_of_nil limit ended]
    show Except.error (⟨.empty, call.2.stop⟩ : ParseError) = _
    rw [later.stop]

/-- Two levels are allowed and a third one is refused, after which the variable inside the third is read. The
level that was refused is still counted then. -/
theorem parse_again_refused :
    let again := (ofText "((x").afterCalls 2 1
    again.nesting.level = 1 ∧ (again.parse 2).2.nesting.level = 1 + 0 ∧ ∃ e, (again.parse 2).1 = .ok e ∧
      ∀ m, 1 < m → (((ofText "((x").afterCalls 2 m).parse 2).1 = .error ⟨.empty, 3⟩ := by
  intro again
  have level : again.nesting.level = 1 := by decide +kernel
  -- trees have no decidable equality, so that only the absence of an error is computed
  have accepted : (again.parse 2).1.isOk = true := by decide +kernel
  obtain ⟨-, -, after, later⟩ := parse_again 2 "((x" 1
  cases read : (again.parse 2).1 with
  | error e =>
    rw [read] at accepted
    cases accepted
  | ok e =>
    have kept : leftover (ParseError.refused 2) (again.parse 2).1 = 0 := by rw [read, leftover]
    exact ⟨level, by rw [after, level, kept], e, rfl, later e read⟩

end Session

end UnitCalc.Formula
