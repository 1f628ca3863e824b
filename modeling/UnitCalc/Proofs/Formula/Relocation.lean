import UnitCalc.Formula.Parser

/-!
# `Proofs.Formula.Relocation` — the parser only passes positions on

The parser compares no positions and computes with none: it takes them from the tokens and puts them into
errors. So whatever becomes of the positions of a session becomes of the position of its error, and of nothing
else (`parse_relocate`).

`Relocates` is this law for any parser. The small steps have it, and the rules have it as long as those they
use do, where a call remembers the position of its name. As the law holds for every map of positions, an error
cannot come up with a position of its own (`exists_start_of_parse`).
-/

namespace UnitCalc.Formula

/-! ## Relocated data -/

variable {g : Nat → Nat}

def Located.relocate (g : Nat → Nat) (t : Located) : Located :=
  ⟨t.token, g t.start⟩

def ParseError.relocate (g : Nat → Nat) (e : ParseError) : ParseError :=
  ⟨e.fault, g e.position⟩

def Stop.relocate (g : Nat → Nat) : Stop → Stop
  | .error e => .error (e.relocate g)
  | .exhausted => .exhausted

def Rule.relocate (g : Nat → Nat) : Rule → Rule
  | .call f start => .call f (g start)
  | rule => rule

namespace Session

/-- The session with every position changed. -/
def relocate (g : Nat → Nat) (s : Session) : Session :=
  ⟨s.rest.map (Located.relocate g), g s.stop, s.nesting⟩

theorem current_relocate (s : Session) : (s.relocate g).current = s.current := by
  obtain ⟨rest, stop, nesting⟩ := s
  cases rest <;> rfl

theorem position_relocate (s : Session) : (s.relocate g).position = g s.position := by
  obtain ⟨rest, stop, nesting⟩ := s
  cases rest <;> rfl

theorem advance_relocate (s : Session) : (s.relocate g).advance = s.advance.relocate g := by
  obtain ⟨rest, stop, nesting⟩ := s
  cases rest <;> rfl

end Session

namespace Parser

variable {α β : Type} {limit : Nat}

/-- The outcome of a run with every position changed. -/
def relocated (g : Nat → Nat) : Except Stop α × Session → Except Stop α × Session
  | (.ok a, s) => (.ok a, s.relocate g)
  | (.error e, s) => (.error (e.relocate g), s.relocate g)

/-- With the positions of a session changed, `p'` does what `p` does, with its positions changed. -/
def Relocates (g : Nat → Nat) (p p' : Parser α) : Prop :=
  ∀ s, p' (s.relocate g) = relocated g (p s)

/-! ## Steps -/

theorem relocates_bind {p p' : Parser α} {f f' : α → Parser β} (hp : Relocates g p p')
    (hf : ∀ a, Relocates g (f a) (f' a)) : Relocates g (p >>= f) (p' >>= f') := by
  intro s
  show andThen p' f' (s.relocate g) = relocated g (andThen p f s)
  rw [andThen, andThen, hp s]
  generalize p s = run
  obtain ⟨e | a, s'⟩ := run
  · rfl
  · exact hf a s'

theorem relocates_current : Relocates g current current := by
  intro s
  rw [current, s.current_relocate]
  rfl

/-- What is done with a position is done with the changed one. -/
theorem relocates_position {f f' : Nat → Parser β} (h : ∀ n, Relocates g (f n) (f' (g n))) :
    Relocates g (position >>= f) (position >>= f') := by
  intro s
  show f' (s.relocate g).position (s.relocate g) = _
  rw [s.position_relocate]
  exact h s.position s

theorem relocates_remaining : Relocates g remaining remaining := by
  intro s
  rw [remaining, Session.relocate, List.length_map]
  rfl

theorem relocates_advance : Relocates g advance advance := by
  intro s
  rw [advance, s.advance_relocate]
  rfl

theorem relocates_done {a : α} : Relocates g (done a) (done a) :=
  fun _ => rfl

theorem relocates_failAt {fault : ParseFault} {n : Nat} :
    Relocates g (failAt fault n : Parser α) (failAt fault (g n)) :=
  fun _ => rfl

theorem relocates_fail {fault : ParseFault} : Relocates g (fail fault : Parser α) (fail fault) := by
  intro s
  rw [fail, s.position_relocate]
  rfl

theorem relocates_exhausted : Relocates g (exhausted : Parser α) exhausted :=
  fun _ => rfl

theorem relocates_nested {p : Parser α} (h : Relocates g p p) :
    Relocates g (nested limit p) (nested limit p) := by
  intro s
  have fails : Relocates g (fail (.nestsTooDeep limit) : Parser α) (fail (.nestsTooDeep limit)) :=
    relocates_fail
  have run := h { s with nesting := s.nesting.enter }
  simp only [nested]
  by_cases refused : (limit : Int) < s.nesting.enter.level
  · rw [if_pos refused, if_pos (by exact refused)]
    exact fails { s with nesting := s.nesting.enter }
  · rw [if_neg refused, if_neg (by exact refused)]
    have inner : { s.relocate g with nesting := (s.relocate g).nesting.enter }
        = ({ s with nesting := s.nesting.enter } : Session).relocate g := rfl
    rw [inner, run]
    generalize p { s with nesting := s.nesting.enter } = outcome
    obtain ⟨e | a, s'⟩ := outcome <;> rfl

theorem relocates_node {e : Expr} : Relocates g (node limit e) (node limit e) := by
  rw [node]
  split
  · exact relocates_fail
  · exact relocates_done

theorem relocates_closeParen : Relocates g closeParen closeParen := by
  refine relocates_bind relocates_current fun t => ?_
  cases t with
  | closeParen => exact relocates_advance
  | _ => exact relocates_fail

theorem relocates_chain {operator? : Token → Option BinOp} {operand : Parser Expr}
    (h : Relocates g operand operand) (turns : Nat) (left : Expr) :
    Relocates g (chain limit operator? operand turns left) (chain limit operator? operand turns left) := by
  induction turns generalizing left with
  | zero => exact relocates_done
  | succ turns ih =>
    refine relocates_bind relocates_current fun t => ?_
    split
    · exact relocates_done
    · refine relocates_bind relocates_advance fun _ => relocates_bind h fun right => ?_
      exact relocates_bind relocates_node ih

theorem relocates_moreArguments {argument : Parser Expr} (h : Relocates g argument argument) (turns : Nat) :
    Relocates g (moreArguments argument turns) (moreArguments argument turns) := by
  induction turns with
  | zero => exact relocates_done
  | succ turns ih =>
    refine relocates_bind relocates_current fun t => ?_
    split
    · refine relocates_bind relocates_advance fun _ => relocates_bind h fun e => ?_
      exact relocates_bind ih fun es => relocates_done
    · exact relocates_done

theorem relocates_arguments {argument : Parser Expr} (h : Relocates g argument argument) :
    Relocates g (arguments argument) (arguments argument) := by
  refine relocates_bind relocates_current fun t => ?_
  split
  · exact relocates_done
  · refine relocates_bind h fun e => relocates_bind relocates_remaining fun turns => ?_
    exact relocates_bind (relocates_moreArguments h turns) fun es => relocates_done

end Parser

/-! ## Rules -/

namespace Rule

open Formula.Parser

variable {limit : Nat} {use : Rule → Parser Expr}

/-- Every rule passes positions on as long as the rules it uses do. -/
theorem relocates_step (uses : ∀ rule, Relocates g (use rule) (use (rule.relocate g))) (rule : Rule) :
    Relocates g (step limit use rule) (step limit use (rule.relocate g)) := by
  cases rule with
  | expression => exact relocates_nested (uses additive)
  | additive =>
    refine relocates_bind (uses multiplicative) fun left => relocates_bind relocates_remaining fun turns => ?_
    exact relocates_chain (uses multiplicative) turns left
  | multiplicative =>
    refine relocates_bind (uses unary) fun left => relocates_bind relocates_remaining fun turns => ?_
    exact relocates_chain (uses unary) turns left
  | unary =>
    refine relocates_bind relocates_current fun t => ?_
    split
    · refine relocates_bind relocates_advance fun _ => ?_
      exact relocates_bind (relocates_nested (uses unary)) fun _ => relocates_node
    · exact uses power
  | power =>
    refine relocates_bind (uses primary) fun base => relocates_bind relocates_current fun t => ?_
    split
    · refine relocates_bind relocates_advance fun _ => ?_
      exact relocates_bind (relocates_nested (uses unary)) fun _ => relocates_node
    · exact relocates_done
  | primary =>
    refine relocates_bind relocates_current fun t => ?_
    cases t with
    | number x =>
      dsimp only
      split
      · exact relocates_bind relocates_advance fun _ => relocates_done
      · exact relocates_fail
    | name text => exact uses (name text)
    | openParen =>
      refine relocates_bind relocates_advance fun _ => relocates_bind (uses expression) fun e => ?_
      exact relocates_bind relocates_closeParen fun _ => relocates_done
    | _ => exact relocates_fail
  | name text =>
    show Relocates g (step limit use (name text)) (step limit use (name text))
    rw [step]
    split
    · exact relocates_bind relocates_advance fun _ => relocates_done
    · exact relocates_bind relocates_advance fun _ => relocates_done
    · next f _ _ _ =>
      refine relocates_position fun start => relocates_bind relocates_advance fun _ => ?_
      refine relocates_bind relocates_current fun t => ?_
      split
      · exact uses (call f start)
      · exact relocates_fail
    · exact relocates_fail
  | call f start =>
    refine relocates_bind relocates_advance fun _ => relocates_bind (relocates_arguments (uses expression)) ?_
    intro args
    refine relocates_bind relocates_closeParen fun _ => ?_
    split
    · exact relocates_node
    · exact relocates_failAt

theorem relocates_within (limit budget : Nat) (rule : Rule) :
    Relocates g (within limit budget rule) (within limit budget (rule.relocate g)) := by
  induction budget generalizing rule with
  | zero => exact relocates_exhausted
  | succ budget ih => exact relocates_step ih rule

end Rule

/-! ## Formulas -/

open Formula.Parser in
theorem Parser.relocates_formula (limit budget : Nat) :
    Relocates g (formula limit budget) (formula limit budget) := by
  refine relocates_bind relocates_current fun t => ?_
  split
  · exact relocates_fail
  · refine relocates_bind (Rule.relocates_within limit budget .expression) fun e => ?_
    refine relocates_bind relocates_current fun t => ?_
    cases t with
    | stop => exact relocates_done
    | _ => exact relocates_fail

namespace Session

/-- **With the positions of a session changed, the position of an error changes**, and nothing else. -/
theorem parse_relocate (limit : Nat) (s : Session) (g : Nat → Nat) :
    ((s.relocate g).parse limit).1 = (s.parse limit).1.mapError (ParseError.relocate g) := by
  have same : (s.relocate g).budget = s.budget := by
    rw [budget, budget, relocate, List.length_map]
  rw [parse, parse, same, Parser.relocates_formula limit s.budget s]
  generalize Parser.formula limit s.budget s = run
  obtain ⟨(e | _) | tree, s'⟩ := run
  · rfl
  · show Except.error (⟨_, (s'.relocate g).position⟩ : ParseError) = _
    rw [s'.position_relocate]
    rfl
  · rfl

/-- **The position of an error is that of a token or of the end of the text.** -/
theorem exists_start_of_parse {limit : Nat} {s : Session} {e : ParseError}
    (h : (s.parse limit).1 = .error e) : e.position = s.stop ∨ ∃ t ∈ s.rest, e.position = t.start := by
  refine Classical.byContradiction fun none => ?_
  rw [not_or, not_exists] at none
  obtain ⟨no_stop, no_token⟩ := none
  -- a map that moves the position of the error only leaves the session as it is
  let g : Nat → Nat := fun n => if n = e.position then e.position + 1 else n
  have kept : ∀ n, e.position ≠ n → g n = n := fun n other => if_neg other.symm
  have each : ∀ t ∈ s.rest, t.relocate g = t := by
    intro t ht
    rw [Located.relocate, kept t.start fun here => no_token t ⟨ht, here⟩]
  have fixed : s.relocate g = s := by
    rw [relocate, (List.map_congr_left each).trans (List.map_id' _), kept s.stop no_stop]
  have moved := s.parse_relocate limit g
  rw [fixed, h] at moved
  have position := congrArg ParseError.position (Except.error.inj moved)
  simp [ParseError.relocate, g] at position

end Session

end UnitCalc.Formula
