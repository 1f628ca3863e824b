import UnitCalc.Proofs.Formula.Agreement

/-!
# `Proofs.Formula.Budget` — how deeply calls of rules are nested

No text makes the parser nest its rules deeper than eight calls for each level that is allowed and eight
more (`formula_within_levels`). For a rule uses another one only in one of the ways that `Calls` lists, and
each of them goes down the grammar, or passes a token, or goes one level further in.

A budget lasts if it covers a quantity that becomes smaller with every call (`lasts_within`). There are two
such quantities. One counts the tokens that are left (`Session.tokenCost`), which is how a session finds
its own budget; the other counts the levels that are left under the limit (`Session.levelCost`), whatever
the length of the text. What is parsed does not depend on the budget as long as it lasts.
-/

namespace UnitCalc.Formula

/-! ## Sessions that go on -/

namespace Session

/-- The session goes on to the other one at the same level; no token comes back. -/
def Onward (s s' : Session) : Prop :=
  s'.rest.length ≤ s.rest.length ∧ s'.nesting.level = s.nesting.level

/-- The session goes on to the other one, one level further in, which the limit allows. -/
def Inward (limit : Nat) (s s' : Session) : Prop :=
  s'.rest.length ≤ s.rest.length ∧ s'.nesting.level = s.nesting.level + 1 ∧ s'.nesting.level ≤ limit

variable {limit : Nat} {s s' s'' : Session}

theorem Onward.refl (s : Session) : s.Onward s :=
  ⟨Nat.le_refl _, rfl⟩

theorem Onward.trans (h : s.Onward s') (h' : s'.Onward s'') : s.Onward s'' :=
  ⟨Nat.le_trans h'.1 h.1, h'.2.trans h.2⟩

theorem onward_advance (s : Session) : s.Onward s.advance :=
  ⟨by simp [advance], rfl⟩

/-- Passing a token leaves fewer of them. -/
theorem length_advance_lt {t : Token} (h : s.current = t) (go_on : t ≠ .stop) :
    s.advance.rest.length < s.rest.length := by
  rcases s with ⟨_ | ⟨u, rest⟩, stop, nesting⟩
  · exact absurd h.symm go_on
  · exact Nat.lt_succ_self rest.length

theorem Onward.inward (h : s.Onward s') (h' : s'.Inward limit s'') : s.Inward limit s'' :=
  ⟨Nat.le_trans h'.1 h.1, by rw [h'.2.1, h.2], h'.2.2⟩

end Session

/-! ## Parsers whose budget lasts -/

namespace Parser

variable {α β : Type} {limit : Nat} {s : Session}

/-- The parser does not stop for want of calls, and comes back to its level if it reads anything. -/
def Lasts (p : Parser α) (s : Session) : Prop :=
  match p s with
  | (.ok _, s') => s.Onward s'
  | (.error stop, _) => stop ≠ .exhausted

theorem Lasts.ne_exhausted {p : Parser α} (h : Lasts p s) : (p s).1 ≠ .error .exhausted := by
  intro run
  rw [Lasts] at h
  rcases eq : p s with ⟨result, s'⟩
  rw [eq] at h run
  obtain rfl : result = .error .exhausted := run
  exact h rfl

theorem lasts_bind {p : Parser α} {f : α → Parser β} (first : Lasts p s)
    (next : ∀ a s', s.Onward s' → Lasts (f a) s') : Lasts (p >>= f) s := by
  show Lasts (andThen p f) s
  rw [Lasts, andThen]
  rw [Lasts] at first
  generalize p s = run at first ⊢
  obtain ⟨_ | a, s'⟩ := run
  · exact first
  · have later := next a s' first
    rw [Lasts] at later
    dsimp only
    generalize f a s' = run at later ⊢
    obtain ⟨_ | b, s''⟩ := run
    · exact later
    · exact first.trans later

theorem lasts_current {f : Token → Parser β} (h : Lasts (f s.current) s) : Lasts (current >>= f) s :=
  h

theorem lasts_remaining {f : Nat → Parser β} (h : Lasts (f s.rest.length) s) :
    Lasts (remaining >>= f) s :=
  h

theorem lasts_position {f : Nat → Parser β} (h : Lasts (f s.position) s) : Lasts (position >>= f) s :=
  h

theorem lasts_advance {f : Unit → Parser β} (h : Lasts (f ()) s.advance) : Lasts (advance >>= f) s := by
  rw [Lasts] at h ⊢
  show match f () s.advance with
    | (.ok _, s') => s.Onward s'
    | (.error stop, _) => stop ≠ .exhausted
  generalize f () s.advance = run at h ⊢
  obtain ⟨_ | b, s'⟩ := run
  · exact h
  · exact s.onward_advance.trans h

theorem lasts_done (a : α) : Lasts (done a) s :=
  Session.Onward.refl s

theorem lasts_fail (fault : ParseFault) : Lasts (fail (α := α) fault) s :=
  nofun

theorem lasts_failAt (fault : ParseFault) (n : Nat) : Lasts (failAt (α := α) fault n) s :=
  nofun

theorem lasts_node (e : Expr) : Lasts (node limit e) s := by
  rw [node]
  split
  · exact lasts_fail _
  · exact lasts_done e

theorem lasts_closeParen : Lasts closeParen s := by
  refine lasts_current ?_
  split
  · exact s.onward_advance
  · exact lasts_fail _
  · exact lasts_fail _

/-- What is nested is read one level further in, if that level is allowed at all. -/
theorem lasts_nested {p : Parser α} (inside : ∀ s', s.Inward limit s' → Lasts p s') :
    Lasts (nested limit p) s := by
  rw [Lasts]
  simp only [nested]
  by_cases refused : (limit : Int) < s.nesting.enter.level
  · rw [if_pos refused]
    intro same
    cases same
  · rw [if_neg refused]
    have run := inside { s with nesting := s.nesting.enter } ⟨Nat.le_refl _, rfl, Int.not_lt.1 refused⟩
    rw [Lasts] at run
    generalize p { s with nesting := s.nesting.enter } = outcome at run ⊢
    obtain ⟨_ | a, s'⟩ := outcome
    · exact run
    · -- the level is given back, so that it is the one from before `enter`
      obtain ⟨fewer, level⟩ := run
      refine ⟨fewer, ?_⟩
      simp only [Gauge.enter, Gauge.leave, Gauge.set] at level ⊢
      omega

theorem lasts_chain {operator? : Token → Option BinOp} {operand : Parser Expr}
    (each : ∀ s', s.Onward s' → Lasts operand s') (turns : Nat) (left : Expr) :
    Lasts (chain limit operator? operand turns left) s := by
  induction turns generalizing s left with
  | zero => exact lasts_done left
  | succ turns ih =>
    refine lasts_current ?_
    split
    · exact lasts_done left
    · refine lasts_advance (lasts_bind (each _ s.onward_advance) fun right s' later => ?_)
      refine lasts_bind (lasts_node _) fun e s'' same => ih (fun t onward => each t ?_) e
      exact s.onward_advance.trans (later.trans (same.trans onward))

section Arguments

variable {argument : Parser Expr}

theorem lasts_moreArguments (each : ∀ s', s.Onward s' → Lasts argument s') (turns : Nat) :
    Lasts (moreArguments argument turns) s := by
  induction turns generalizing s with
  | zero => exact lasts_done []
  | succ turns ih =>
    refine lasts_current ?_
    split
    · refine lasts_advance (lasts_bind (each _ s.onward_advance) fun e s' later => ?_)
      refine lasts_bind (ih fun t onward => each t ?_) fun es _ _ => lasts_done _
      exact s.onward_advance.trans (later.trans onward)
    · exact lasts_done []

theorem lasts_arguments (each : ∀ s', s.Onward s' → Lasts argument s') : Lasts (arguments argument) s := by
  refine lasts_current ?_
  split
  · exact lasts_done []
  · refine lasts_bind (each s (.refl s)) fun e s' later => lasts_remaining ?_
    refine lasts_bind (lasts_moreArguments (fun t onward => each t (later.trans onward)) _) ?_
    exact fun es _ _ => lasts_done _

end Arguments

end Parser

/-! ## Which rules a rule uses -/

open Session

/-- The rule, at the session `s`, may use the other one at the session `s'`. -/
inductive Calls (limit : Nat) (s s' : Session) : Rule → Rule → Prop
  | whole (inward : s.Inward limit s') : Calls limit s s' .expression .additive
  | term (onward : s.Onward s') : Calls limit s s' .additive .multiplicative
  | factor (onward : s.Onward s') : Calls limit s s' .multiplicative .unary
  | power (onward : s.Onward s') : Calls limit s s' .unary .power
  | negated (inward : s.Inward limit s') (fewer : s'.rest.length < s.rest.length) :
      Calls limit s s' .unary .unary
  | base (onward : s.Onward s') : Calls limit s s' .power .primary
  | exponent (inward : s.Inward limit s') (fewer : s'.rest.length < s.rest.length) :
      Calls limit s s' .power .unary
  | name {text : String} (onward : s.Onward s') : Calls limit s s' .primary (.name text)
  | group (onward : s.Onward s') (fewer : s'.rest.length < s.rest.length) :
      Calls limit s s' .primary .expression
  | call {text : String} {f : Func} {start : Nat} (onward : s.Onward s')
      (opened : s'.current = .openParen) : Calls limit s s' (.name text) (.call f start)
  | argument {f : Func} {start : Nat} (onward : s.Onward s') (passed : s.advance.Onward s') :
      Calls limit s s' (.call f start) .expression

namespace Rule

open Formula.Parser

variable {limit : Nat} {s : Session} {rule : Rule}

/-- **A rule lasts if the rules that it uses do**, each where it is used. -/
theorem lasts_step {use : Rule → Parser Expr}
    (uses : ∀ rule' s', Calls limit s s' rule rule' → Lasts (use rule') s') :
    Lasts (step limit use rule) s := by
  cases rule with
  | expression => exact lasts_nested fun s' inward => uses _ s' (.whole inward)
  | additive =>
    refine lasts_bind (uses _ s (.term (.refl s))) fun left s' onward => lasts_remaining ?_
    exact lasts_chain (fun t later => uses _ t (.term (onward.trans later))) _ left
  | multiplicative =>
    refine lasts_bind (uses _ s (.factor (.refl s))) fun left s' onward => lasts_remaining ?_
    exact lasts_chain (fun t later => uses _ t (.factor (onward.trans later))) _ left
  | unary =>
    refine lasts_current ?_
    split
    · next minus =>
      have fewer := length_advance_lt minus (by simp)
      refine lasts_advance (lasts_bind (lasts_nested fun s' inward => ?_) fun e _ _ => lasts_node _)
      exact uses _ s' (.negated (s.onward_advance.inward inward) (Nat.lt_of_le_of_lt inward.1 fewer))
    · exact uses _ s (.power (.refl s))
  | power =>
    refine lasts_bind (uses _ s (.base (.refl s))) fun base s' onward => lasts_current ?_
    split
    · next caret =>
      have fewer := Nat.lt_of_lt_of_le (length_advance_lt caret (by simp)) onward.1
      refine lasts_advance (lasts_bind (lasts_nested fun t inward => ?_) fun e _ _ => lasts_node _)
      refine uses _ t (.exponent ?_ (Nat.lt_of_le_of_lt inward.1 fewer))
      exact (onward.trans s'.onward_advance).inward inward
    · exact lasts_done base
  | primary =>
    refine lasts_current ?_
    cases current : s.current with
    | number x =>
      dsimp only
      split
      · exact lasts_advance (lasts_done _)
      · exact lasts_fail _
    | name text => exact uses _ s (.name (.refl s))
    | openParen =>
      have fewer := length_advance_lt current (by simp)
      refine lasts_advance (lasts_bind (uses _ _ (.group s.onward_advance fewer)) fun e s' _ => ?_)
      exact lasts_bind lasts_closeParen fun _ _ _ => lasts_done e
    | _ => exact lasts_fail _
  | name text =>
    rw [step]
    split
    · exact lasts_advance (lasts_done _)
    · exact lasts_advance (lasts_done _)
    · next f _ _ _ =>
      refine lasts_position (lasts_advance (lasts_current ?_))
      split
      · next opened =>
        exact uses _ _ (.call s.onward_advance opened)
      · exact lasts_fail _
    · exact lasts_fail _
  | call f start =>
    refine lasts_advance (lasts_bind (lasts_arguments fun s' passed => ?_) fun args s' _ => ?_)
    · exact uses _ s' (.argument (s.onward_advance.trans passed) passed)
    · refine lasts_bind lasts_closeParen fun _ _ _ => ?_
      split
      · exact lasts_node _
      · exact lasts_failAt _ _

/-- **A budget lasts if it covers a cost that becomes smaller with every call.** -/
theorem lasts_within {cost : Session → Rule → Nat}
    (cheaper : ∀ {s s' rule rule'}, Calls limit s s' rule rule' → cost s' rule' < cost s rule)
    {budget : Nat} (enough : cost s rule < budget) : Lasts (within limit budget rule) s := by
  induction budget generalizing s rule with
  | zero => exact absurd enough (Nat.not_lt_zero _)
  | succ budget ih =>
    exact lasts_step fun rule' s' calls =>
      ih (Nat.lt_of_lt_of_le (cheaper calls) (Nat.le_of_lt_succ enough))

end Rule

/-! ## Two costs of a call -/

namespace Session

variable {limit : Nat} {s s' : Session} {rule rule' : Rule}

/-- What is nested inside a rule, as far as the tokens that are left allow it: eight calls for each token,
and those down the grammar to the first one. -/
def tokenCost (s : Session) : Rule → Nat
  | .expression => 8 * s.rest.length + 7
  | .additive => 8 * s.rest.length + 6
  | .multiplicative => 8 * s.rest.length + 5
  | .unary => 8 * s.rest.length + 4
  | .power => 8 * s.rest.length + 3
  | .primary => 8 * s.rest.length + 2
  | .name _ => 8 * s.rest.length + 1
  -- what a call uses begins behind its parenthesis
  | .call _ _ => 8 * s.advance.rest.length + 8

/-- How many levels the limit allows further in. -/
def levelsLeft (limit : Nat) (s : Session) : Nat :=
  (limit - s.nesting.level).toNat

/-- What is nested inside a rule, as far as the levels that are left allow it: eight calls for each level,
and those down the grammar to an expression, which has to ask for a level. -/
def levelCost (limit : Nat) (s : Session) : Rule → Nat
  | .expression => 8 * s.levelsLeft limit
  | .call _ _ => 8 * s.levelsLeft limit + 1
  | .name _ => 8 * s.levelsLeft limit + 2
  | .primary => 8 * s.levelsLeft limit + 3
  | .power => 8 * s.levelsLeft limit + 4
  | .unary => 8 * s.levelsLeft limit + 5
  | .multiplicative => 8 * s.levelsLeft limit + 6
  | .additive => 8 * s.levelsLeft limit + 7

theorem tokenCost_lt_of_calls (h : Calls limit s s' rule rule') : s'.tokenCost rule' < s.tokenCost rule := by
  cases h with
  | call onward opened =>
    have fewer := length_advance_lt opened (by simp)
    have left := onward.1
    simp only [tokenCost]
    omega
  | argument onward passed =>
    have left := passed.1
    simp only [tokenCost]
    omega
  | group onward fewer =>
    simp only [tokenCost]
    omega
  | whole inward | negated inward | exponent inward =>
    have left := inward.1
    simp only [tokenCost]
    omega
  | _ onward =>
    have left := onward.1
    simp only [tokenCost]
    omega

theorem levelCost_lt_of_calls (h : Calls limit s s' rule rule') :
    s'.levelCost limit rule' < s.levelCost limit rule := by
  cases h with
  | whole inward | negated inward | exponent inward =>
    obtain ⟨-, deeper, allowed⟩ := inward
    simp only [levelCost, levelsLeft]
    omega
  | _ onward =>
    have level := onward.2
    simp only [levelCost, levelsLeft, level]
    omega

end Session

/-! ## Formulas -/

section Formulas

open Formula.Parser

variable {limit budget : Nat} {s : Session}

theorem lasts_formula (whole : Lasts (Rule.expression.within limit budget) s) :
    Lasts (formula limit budget) s := by
  refine lasts_current ?_
  split
  · exact lasts_fail _
  · refine lasts_bind whole fun e s' _ => lasts_current ?_
    split
    · exact lasts_done e
    · exact lasts_fail _
    · exact lasts_fail _

/-- A budget that lasts might as well be larger. -/
theorem formula_add (lasts : Lasts (formula limit budget) s) (more : Nat) :
    formula limit (budget + more) s = formula limit budget s := by
  rcases agrees_formula (Rule.agrees_budget limit budget more .expression) s with ⟨_, stopped, rfl⟩ | same
  · exact absurd stopped lasts.ne_exhausted
  · exact same.symm

/-- The budget that a session finds for itself is never exhausted. -/
theorem lasts_budget (limit : Nat) (s : Session) : Lasts (formula limit s.budget) s := by
  refine lasts_formula (Rule.lasts_within Session.tokenCost_lt_of_calls ?_)
  rw [Session.tokenCost, Session.budget]
  omega

/-- Eight calls for every level that is left, and eight more, are never exhausted. -/
theorem lasts_levels (limit : Nat) (s : Session) :
    Lasts (formula limit (8 * (s.levelsLeft limit + 1))) s := by
  refine lasts_formula (Rule.lasts_within Session.levelCost_lt_of_calls ?_)
  rw [Session.levelCost]
  omega

/-- Parsing stops for an error of the text, if at all. -/
theorem formula_budget (limit : Nat) (s : Session) :
    (formula limit s.budget s).1 = (s.parse limit).1.mapError .error := by
  have lasts := (lasts_budget limit s).ne_exhausted
  rw [Session.parse]
  generalize formula limit s.budget s = run at lasts ⊢
  obtain ⟨(_ | _) | e, s'⟩ := run
  · rfl
  · exact absurd rfl lasts
  · rfl

/-- **No text exhausts the calls.** Whatever the text and its length, the parser never nests more than eight
calls of rules for each level that the limit allows and eight more: with a budget of so many calls it does
not run out of them, and it gives the same tree or the same error as without regard to budgets. Nor does
any larger budget make a difference. -/
theorem formula_within_levels (limit : Nat) (text : String) (more : Nat) :
    (formula limit (8 * (limit + 1) + more) (.ofText text)).1 ≠ .error .exhausted ∧
      (formula limit (8 * (limit + 1) + more) (.ofText text)).1
        = (parseUpTo limit text).mapError .error := by
  have levels : (Session.ofText text).levelsLeft limit = limit := by
    simp [Session.levelsLeft, Session.ofText, Gauge.resting]
  have lasts := lasts_levels limit (.ofText text)
  rw [levels] at lasts
  have budgets : formula limit (8 * (limit + 1) + more) (.ofText text)
      = formula limit (Session.ofText text).budget (.ofText text) := by
    -- both budgets last, so that both runs are the one with the sum of them
    rw [formula_add lasts, ← formula_add lasts (Session.ofText text).budget, Nat.add_comm,
      formula_add (lasts_budget limit _)]
  rw [budgets]
  exact ⟨(lasts_budget limit _).ne_exhausted, formula_budget limit _⟩

end Formulas

end UnitCalc.Formula
