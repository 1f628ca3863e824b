import UnitCalc.Formula.Parser

/-!
# `Proofs.Formula.Agreement` — parsers that differ only in where they give up

A parser that is allowed less, fewer levels or fewer nested calls, gives up earlier, and does the same as
the other one up to that point. `Agrees` says this of two parsers that start from the same session: one of
them stops for a reason that counts as giving up, or both do exactly the same. Small steps that agree are
put together to rules that agree, so that the two runs are followed once, for limits (`agrees_limit`) and
for budgets (`agrees_budget`).

With two limits every check for depth is made twice. The lower limit refuses whatever the higher one
refuses, and what it refuses beyond that is the way in which it gives up (`Stricter`).
-/

namespace UnitCalc.Formula

namespace Parser

variable {α β : Type} {gaveUp : Stop → Prop} {limit limit' : Nat}

/-- `p` gives up, or does what `q` does. -/
def Agrees (gaveUp : Stop → Prop) (p q : Parser α) : Prop :=
  ∀ s, (∃ stop, (p s).1 = .error stop ∧ gaveUp stop) ∨ p s = q s

/-- The limits are the same, or the first one is lower and its refusals count as giving up. -/
def Stricter (gaveUp : Stop → Prop) (limit limit' : Nat) : Prop :=
  limit = limit' ∨ limit ≤ limit' ∧
    ∀ e : ParseError, e.fault = .nestsTooDeep limit ∨ e.fault = .treeTooDeep limit → gaveUp (.error e)

/-! ## Small steps -/

theorem agrees_refl (p : Parser α) : Agrees gaveUp p p :=
  fun _ => .inr rfl

theorem agrees_exhausted {q : Parser α} (h : gaveUp .exhausted) : Agrees gaveUp exhausted q :=
  fun _ => .inl ⟨.exhausted, rfl, h⟩

theorem agrees_fail {fault : ParseFault} {q : Parser α} (h : ∀ n, gaveUp (.error ⟨fault, n⟩)) :
    Agrees gaveUp (fail fault) q :=
  fun s => .inl ⟨_, rfl, h s.position⟩

theorem agrees_bind {p q : Parser α} {f g : α → Parser β} (first : Agrees gaveUp p q)
    (next : ∀ a, Agrees gaveUp (f a) (g a)) : Agrees gaveUp (p >>= f) (q >>= g) := by
  intro s
  show (∃ stop, (andThen p f s).1 = .error stop ∧ gaveUp stop) ∨ andThen p f s = andThen q g s
  rcases first s with ⟨stop, stopped, given⟩ | same
  · -- an error of the first part is one of the whole
    refine .inl ⟨stop, ?_, given⟩
    rw [andThen]
    rcases run : p s with ⟨result, s'⟩
    rw [run] at stopped
    obtain rfl : result = .error stop := stopped
    rfl
  · rw [andThen, andThen, ← same]
    rcases p s with ⟨result, s'⟩
    cases result with
    | ok a => exact next a s'
    | error stop => exact .inr rfl

/-- The next part is chosen by what has been read. -/
theorem agrees_after (p : Parser α) {f g : α → Parser β} (next : ∀ a, Agrees gaveUp (f a) (g a)) :
    Agrees gaveUp (p >>= f) (p >>= g) :=
  agrees_bind (agrees_refl p) next

theorem agrees_nested (limits : Stricter gaveUp limit limit') {p q : Parser α}
    (inside : Agrees gaveUp p q) : Agrees gaveUp (nested limit p) (nested limit' q) := by
  intro s
  simp only [nested]
  by_cases refused : (limit : Int) < s.nesting.enter.level
  · rw [if_pos refused]
    rcases limits with rfl | ⟨-, given⟩
    · rw [if_pos refused]
      exact .inr rfl
    · exact .inl ⟨_, rfl, given _ (.inl rfl)⟩
  · have allowed : ¬ (limit' : Int) < s.nesting.enter.level := by
      rcases limits with rfl | ⟨le, -⟩
      · exact refused
      · omega
    rw [if_neg refused, if_neg allowed]
    rcases inside { s with nesting := s.nesting.enter } with ⟨stop, stopped, given⟩ | same
    · exact .inl ⟨stop, stopped, given⟩
    · rw [same]
      exact .inr rfl

theorem agrees_node (limits : Stricter gaveUp limit limit') (e : Expr) :
    Agrees gaveUp (node limit e) (node limit' e) := by
  rw [node, node]
  rcases limits with rfl | ⟨le, given⟩
  · exact agrees_refl _
  · by_cases refused : limit < e.depth
    · rw [if_pos refused]
      exact agrees_fail fun n => given _ (.inr rfl)
    · rw [if_neg refused, if_neg (by omega)]
      exact agrees_refl _

/-! ## Loops -/

theorem agrees_chain (limits : Stricter gaveUp limit limit') {operator? : Token → Option BinOp}
    {operand operand' : Parser Expr} (each : Agrees gaveUp operand operand') (turns : Nat) (left : Expr) :
    Agrees gaveUp (chain limit operator? operand turns left)
      (chain limit' operator? operand' turns left) := by
  induction turns generalizing left with
  | zero => exact agrees_refl _
  | succ turns ih =>
    refine agrees_after current fun t => ?_
    cases operator? t with
    | none => exact agrees_refl _
    | some op =>
      refine agrees_after advance fun _ => agrees_bind each fun right => ?_
      exact agrees_bind (agrees_node limits _) ih

section Arguments

variable {argument argument' : Parser Expr}

theorem agrees_moreArguments (each : Agrees gaveUp argument argument') (turns : Nat) :
    Agrees gaveUp (moreArguments argument turns) (moreArguments argument' turns) := by
  induction turns with
  | zero => exact agrees_refl _
  | succ turns ih =>
    refine agrees_after current fun t => ?_
    split
    · exact agrees_after advance fun _ => agrees_bind each fun e => agrees_bind ih fun es => agrees_refl _
    · exact agrees_refl _

theorem agrees_arguments (each : Agrees gaveUp argument argument') :
    Agrees gaveUp (arguments argument) (arguments argument') := by
  refine agrees_after current fun t => ?_
  split
  · exact agrees_refl _
  · refine agrees_bind each fun e => agrees_after remaining fun turns => ?_
    exact agrees_bind (agrees_moreArguments each turns) fun es => agrees_refl _

end Arguments

end Parser

/-! ## Rules -/

namespace Rule

open Formula.Parser

variable {gaveUp : Stop → Prop} {limit limit' : Nat}

/-- **A rule agrees with itself if the rules it uses do.** -/
theorem agrees_step (limits : Stricter gaveUp limit limit') {use use' : Rule → Parser Expr}
    (uses : ∀ rule, Agrees gaveUp (use rule) (use' rule)) (rule : Rule) :
    Agrees gaveUp (step limit use rule) (step limit' use' rule) := by
  cases rule with
  | expression => exact agrees_nested limits (uses additive)
  | additive =>
    refine agrees_bind (uses multiplicative) fun left => agrees_after remaining fun turns => ?_
    exact agrees_chain limits (uses multiplicative) turns left
  | multiplicative =>
    refine agrees_bind (uses unary) fun left => agrees_after remaining fun turns => ?_
    exact agrees_chain limits (uses unary) turns left
  | unary =>
    refine agrees_after current fun t => ?_
    split
    · refine agrees_after advance fun _ => agrees_bind (agrees_nested limits (uses unary)) fun e => ?_
      exact agrees_node limits _
    · exact uses power
  | power =>
    refine agrees_bind (uses primary) fun base => agrees_after current fun t => ?_
    split
    · refine agrees_after advance fun _ => agrees_bind (agrees_nested limits (uses unary)) fun e => ?_
      exact agrees_node limits _
    · exact agrees_refl _
  | primary =>
    refine agrees_after current fun t => ?_
    cases t with
    | name text => exact uses (name text)
    | openParen => exact agrees_after advance fun _ => agrees_bind (uses expression) fun e => agrees_refl _
    | _ => exact agrees_refl _
  | name text =>
    rw [step, step]
    split
    · exact agrees_refl _
    · exact agrees_refl _
    · next f _ _ _ =>
      refine agrees_after position fun start => agrees_after advance fun _ => agrees_after current fun t => ?_
      split
      · exact uses (call f start)
      · exact agrees_refl _
    · exact agrees_refl _
  | call f start =>
    refine agrees_after advance fun _ => agrees_bind (agrees_arguments (uses expression)) fun args => ?_
    refine agrees_after closeParen fun _ => ?_
    split
    · exact agrees_node limits _
    · exact agrees_refl _

/-- Under a lower limit a rule gives up, or does what it does under the higher one. -/
theorem agrees_limit (limits : Stricter gaveUp limit limit') (budget : Nat) (rule : Rule) :
    Agrees gaveUp (within limit budget rule) (within limit' budget rule) := by
  induction budget generalizing rule with
  | zero => exact agrees_refl _
  | succ budget ih => exact agrees_step limits ih rule

/-- With a smaller budget a rule exhausts it, or does what it does with the larger one. -/
theorem agrees_budget (limit budget more : Nat) (rule : Rule) :
    Agrees (· = .exhausted) (within limit budget rule) (within limit (budget + more) rule) := by
  induction budget generalizing rule with
  | zero => exact agrees_exhausted rfl
  | succ budget ih =>
    rw [Nat.succ_add]
    exact agrees_step (.inl rfl) ih rule

end Rule

/-- What agrees on expressions agrees on whole formulas. -/
theorem Parser.agrees_formula {gaveUp : Stop → Prop} {limit limit' budget budget' : Nat}
    (whole : Agrees gaveUp (Rule.expression.within limit budget) (Rule.expression.within limit' budget')) :
    Agrees gaveUp (formula limit budget) (formula limit' budget') := by
  refine agrees_after current fun t => ?_
  split
  · exact agrees_refl _
  · exact agrees_bind whole fun e => agrees_refl _

end UnitCalc.Formula
