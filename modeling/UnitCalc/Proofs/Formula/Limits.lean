import UnitCalc.Proofs.Formula.Budget
import UnitCalc.Proofs.Formula.Evaluation

/-!
# `Proofs.Formula.Limits` — what a depth limit decides

A depth limit decides only whether a formula is too deep. If it is not, the limit could be any higher one:
the text has the same tree, or the same error at the same place, and under the same policies the formula
has the same value or the same error (`evaluate_raise`). An error in the text is found all the same, unless
the limit is reached before it.

The parser checks a limit in two ways, for the nesting of the text and for the depth of its tree, and both
runs go together until one of these checks fails under the lower limit (`Rule.agrees_limit`). The evaluator
checks the depth of the tree again, which the parser has limited before; otherwise no value depends on the
limit (`Expr.value_maxDepth`).
-/

namespace UnitCalc.Formula

/-! ## Parsing -/

/-- The parser stopped because the text is too deep. -/
def Stop.TooDeep (stop : Stop) : Prop :=
  ∃ e : ParseError, stop = .error e ∧ e.kind = .tooDeep

variable {limit limit' : Nat}

theorem stricter_tooDeep (le : limit ≤ limit') : Parser.Stricter Stop.TooDeep limit limit' := by
  refine .inr ⟨le, fun e refused => ⟨e, rfl, ?_⟩⟩
  rcases refused with fault | fault <;> rw [ParseError.kind, fault] <;> rfl

theorem eq_of_mapError_eq {r r' : Except ParseError Expr}
    (same : r.mapError Stop.error = r'.mapError Stop.error) : r = r' := by
  cases r <;> cases r' <;> cases same <;> rfl

/-- **A higher limit parses what was too deep**, and changes nothing else. -/
theorem parseUpTo_raise (le : limit ≤ limit') (s : String) :
    (∃ e, parseUpTo limit s = .error e ∧ e.kind = .tooDeep) ∨
      parseUpTo limit s = parseUpTo limit' s := by
  have low := formula_budget limit (.ofText s)
  have high := formula_budget limit' (.ofText s)
  -- the budget depends on the text alone, so that only the limits differ
  have agrees := Parser.agrees_formula
    (Rule.agrees_limit (stricter_tooDeep le) (Session.ofText s).budget .expression)
  rcases agrees (.ofText s) with ⟨_, stopped, e, rfl, deep⟩ | same
  · exact .inl ⟨e, eq_of_mapError_eq (low.symm.trans stopped), deep⟩
  · refine .inr (eq_of_mapError_eq (low.symm.trans (Eq.trans ?_ high)))
    rw [same]

/-! ## Evaluating -/

namespace Expr

variable (settings : Settings) (b : Bindings)

/-- The value of a tree does not depend on the limit. -/
theorem value_maxDepth (limit : Nat) (e : Expr) :
    e.value { settings with maxDepth := limit } b = e.value settings b :=
  value_congr rfl fun _ _ => rfl

end Expr

/-- The value of a text, or why it has none: the parser's check of the limit is enough. -/
theorem evaluate_maxDepth (settings : Settings) (b : Bindings) (limit : Nat) (s : String) :
    evaluate { settings with maxDepth := limit } b s =
      match parseUpTo limit s with
      | .error e => .error (.parse e)
      | .ok tree => (tree.value settings b).mapError .eval := by
  rw [evaluate, compile]
  cases parsed : parseUpTo limit s with
  | error e => rfl
  | ok tree =>
    obtain ⟨ps, -, -, adm⟩ := accepted_of_parseUpTo parsed
    dsimp only
    rw [Compiled.eval, Expr.eval, if_neg (Nat.not_lt.2 adm.depth), Expr.value_maxDepth]
    cases tree.value settings b <;> rfl

/-- **A limit decides only what is too deep.** Under two limits a text is parsed in the same way, to the
same tree or to the same error at the same place, and has the same value or the same error for it, whatever
the policies and the bindings, unless it is too deep for the lower one. -/
theorem evaluate_raise (le : limit ≤ limit') (s : String) :
    ((∃ e, parseUpTo limit s = .error e ∧ e.kind = .tooDeep) ∨
        parseUpTo limit s = parseUpTo limit' s) ∧
      ∀ (settings : Settings) (b : Bindings),
        (∃ e, evaluate { settings with maxDepth := limit } b s = .error (.parse e) ∧ e.kind = .tooDeep) ∨
          evaluate { settings with maxDepth := limit } b s
            = evaluate { settings with maxDepth := limit' } b s := by
  refine ⟨parseUpTo_raise le s, fun settings b => ?_⟩
  rw [evaluate_maxDepth settings b limit, evaluate_maxDepth settings b limit']
  rcases parseUpTo_raise le s with ⟨e, refused, deep⟩ | same
  · rw [refused]
    exact .inl ⟨e, rfl, deep⟩
  · rw [same]
    exact .inr rfl

/-- A character that belongs to no token is found behind a negation, on the second level. -/
theorem evaluate_raise_illegal :
    evaluate { maxDepth := 2 } .empty "-;" = .error (.parse ⟨.illegalCharacter ';', 1⟩) ∧
      evaluate { maxDepth := 100 } .empty "-;" = .error (.parse ⟨.illegalCharacter ';', 1⟩) := by
  have low : evaluate { maxDepth := 2 } .empty "-;" = .error (.parse ⟨.illegalCharacter ';', 1⟩) := by
    decide +kernel
  refine ⟨low, ?_⟩
  rcases (evaluate_raise (show 2 ≤ 100 by decide) "-;").2 {} .empty with ⟨e, refused, deep⟩ | same
  · rw [low] at refused
    cases refused
    cases deep
  · exact same.symm.trans low

end UnitCalc.Formula
