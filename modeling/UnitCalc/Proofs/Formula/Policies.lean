import UnitCalc.Proofs.Formula.Variables

/-!
# `Proofs.Formula.Policies` — what a lenient policy forgives

Two policies say what is an error: a division by zero, and a variable without a value. Under the lenient choice
evaluation goes on, with an infinity or with zero. That changes the result of a tree only where it is this very
error under the strict choice (`eval_lenient`).

A policy decides which nodes fail, while what the other nodes give does not depend on it. So two policies are
compared at single nodes (`Forgives`): the lenient one forgives some errors and keeps all others. The first
failure of a tree is then the same under both unless it is forgiven, whatever fails after it.
-/

namespace UnitCalc.Formula

/-! ## Divisions by zero -/

section Division

variable {err : EvalError}

/-- An operator that may divide by zero keeps its other errors. -/
theorem operatorFails_ieee754 {op : BinOp} {x y : Float} :
    OperatorFails .ieee754 op x y err ↔ OperatorFails .error op x y err ∧ err ≠ .divisionByZero := by
  constructor
  · intro h
    cases h with
    | zeroDivisor error => cases error
    | zeroBase error => cases error
    | fractionalPower negative finite fractional =>
      exact ⟨.fractionalPower negative finite fractional, by simp⟩
  · rintro ⟨h, other⟩
    cases h with
    | zeroDivisor => exact absurd rfl other
    | zeroBase => exact absurd rfl other
    | fractionalPower negative finite fractional => exact .fractionalPower negative finite fractional

/-- Of the functions, only a power divides. -/
theorem callFails_ieee754 {f : Func} {xs : List Float} :
    CallFails .ieee754 f xs err ↔ CallFails .error f xs err ∧ err ≠ .divisionByZero := by
  constructor
  · intro h
    cases h with
    | power fails =>
      obtain ⟨fails, other⟩ := operatorFails_ieee754.1 fails
      exact ⟨.power fails, other⟩
    | argumentCount refused => exact ⟨.argumentCount refused, by simp⟩
    | negativeRoot negative => exact ⟨.negativeRoot negative, by simp⟩
    | nonPositiveLog which low => exact ⟨.nonPositiveLog which low, by simp⟩
    | outsideUnit which outside => exact ⟨.outsideUnit which outside, by simp⟩
    | roundingPlaces infinite => exact ⟨.roundingPlaces infinite, by simp⟩
  · rintro ⟨h, other⟩
    cases h with
    | power fails => exact .power (operatorFails_ieee754.2 ⟨fails, other⟩)
    | argumentCount refused => exact .argumentCount refused
    | negativeRoot negative => exact .negativeRoot negative
    | nonPositiveLog which low => exact .nonPositiveLog which low
    | outsideUnit which outside => exact .outsideUnit which outside
    | roundingPlaces infinite => exact .roundingPlaces infinite

end Division

/-! ## Variables without a value -/

/-- The bindings, with zero for every variable that has no value. -/
def Bindings.orZero (b : Bindings) : Bindings :=
  .ofXYZ (b.x.getD 0) (b.y.getD 0) (b.z.getD 0)

theorem Bindings.get_orZero (b : Bindings) (v : Var) : b.orZero.get v = some ((b.get v).getD 0) := by
  cases v <;> rfl

/-- To take a missing value for zero is to look it up where it is zero. -/
theorem lookup_orZero (settings : Settings) (b : Bindings) (v : Var) :
    Settings.lookup { settings with unboundVariables := .zero } b v
      = Settings.lookup { settings with unboundVariables := .error } b.orZero v := by
  rw [Settings.lookup, Settings.lookup, b.get_orZero]
  cases b.get v <;> rfl

/-! ## Forgiven errors -/

namespace Expr

/-- Under the lenient settings the same nodes fail with the same errors as under the strict ones, but for the
    errors that are forgiven. -/
def Forgives (forgiven : EvalError → Prop) (strict lenient : Settings) (b : Bindings) : Prop :=
  ∀ n err, Fails lenient b n err ↔ Fails strict b n err ∧ ¬ forgiven err

section Forgives

variable {forgiven : EvalError → Prop} {strict lenient : Settings} {b : Bindings} {e : Expr} {ns : List Expr}
  {err : EvalError}

theorem Forgives.clean (h : Forgives forgiven strict lenient b) (clean : Clean strict b ns) :
    Clean lenient b ns :=
  fun n hn err fails => clean n hn err ((h n err).1 fails).1

theorem Forgives.firstFailure (h : Forgives forgiven strict lenient b) (first : FirstFailure strict b ns err)
    (kept : ¬ forgiven err) : FirstFailure lenient b ns err := by
  induction first with
  | here fails => exact .here ((h _ _).2 ⟨fails, kept⟩)
  | later clean _ ih => exact .later (fun err fails => clean err ((h _ err).1 fails).1) (ih kept)

/-- No value is missing for an error that is forgiven. -/
theorem Forgives.not_forgiven (h : Forgives forgiven strict lenient b)
    (error : e.value lenient b = .error err) : ¬ forgiven err := by
  obtain ⟨n, -, fails⟩ := exists_fails error
  exact ((h n err).1 fails).2

theorem Forgives.value_eq (h : Forgives forgiven strict lenient b)
    (kept : ∀ err, e.value strict b = .error err → ¬ forgiven err) :
    e.value lenient b = e.value strict b := by
  rcases clean_or_firstFailure strict b e.postorder with clean | ⟨err, first⟩
  · rw [(outcome_value e).value clean, (outcome_value e).value (h.clean clean)]
  · have error := (outcome_value e).error err first
    rw [error, (outcome_value e).error err (h.firstFailure first (kept err error))]

/-- A forgiven error is not the result. -/
theorem Forgives.not_forgiven_of_eval (h : Forgives forgiven strict lenient b)
    (shallow : ∀ limit, ¬ forgiven (.tooDeep limit)) (error : e.eval lenient b = .error err) :
    ¬ forgiven err := by
  rw [Expr.eval] at error
  split at error
  · cases error
    exact shallow _
  · exact h.not_forgiven error

/-- **Forgiving changes only what is forgiven.** -/
theorem Forgives.eval_eq (h : Forgives forgiven strict lenient b) (depth : lenient.maxDepth = strict.maxDepth)
    (kept : ∀ err, e.eval strict b = .error err → ¬ forgiven err) : e.eval lenient b = e.eval strict b := by
  rw [Expr.eval, Expr.eval, depth]
  by_cases deep : strict.maxDepth < e.depth
  · rw [if_pos deep, if_pos deep]
  · rw [if_neg deep, if_neg deep]
    exact h.value_eq fun err error => kept err ((if_neg deep).trans error)

end Forgives

/-! ## Policies -/

theorem forgives_divisionByZero (settings : Settings) (b : Bindings) :
    Forgives (· = .divisionByZero) { settings with divisionByZero := .error }
      { settings with divisionByZero := .ieee754 } b := by
  intro n err
  constructor
  · intro h
    cases h with
    | unbound error free => exact ⟨.unbound error free, by simp⟩
    | operator fails =>
      obtain ⟨fails, other⟩ := operatorFails_ieee754.1 fails
      exact ⟨.operator fails, other⟩
    | call fails =>
      obtain ⟨fails, other⟩ := callFails_ieee754.1 fails
      exact ⟨.call fails, other⟩
  · rintro ⟨h, other⟩
    cases h with
    | unbound error free => exact .unbound error free
    | operator fails => exact .operator (operatorFails_ieee754.2 ⟨fails, other⟩)
    | call fails => exact .call (callFails_ieee754.2 ⟨fails, other⟩)

theorem forgives_unboundVariable (settings : Settings) (b : Bindings) :
    Forgives (fun err => ∃ v, err = .unboundVariable v) { settings with unboundVariables := .error }
      { settings with unboundVariables := .zero } b := by
  intro n err
  constructor
  · intro h
    cases h with
    | unbound error free => cases error
    | operator fails => exact ⟨.operator fails, by rintro ⟨v, rfl⟩; exact fails.ofOperation⟩
    | call fails => exact ⟨.call fails, by rintro ⟨v, rfl⟩; exact fails.ofOperation⟩
  · rintro ⟨h, other⟩
    cases h with
    | unbound error free => exact absurd ⟨_, rfl⟩ other
    | operator fails => exact .operator fails
    | call fails => exact .call fails

/-- **A lenient policy changes only what the strict one rejects for that very reason.** Where infinities stand
in for divisions by zero, none is an error, and any other result is the strict one. Where zero stands in for
variables without a value, the result is the strict one with zero bound to them. So none of them is an error,
and any other result is the strict one. -/
theorem eval_lenient (settings : Settings) (b : Bindings) (e : Expr) :
    (e.eval { settings with divisionByZero := .ieee754 } b ≠ .error .divisionByZero
      ∧ (e.eval { settings with divisionByZero := .error } b ≠ .error .divisionByZero →
          e.eval { settings with divisionByZero := .ieee754 } b
            = e.eval { settings with divisionByZero := .error } b))
      ∧ e.eval { settings with unboundVariables := .zero } b
          = e.eval { settings with unboundVariables := .error } b.orZero
      ∧ (∀ v, e.eval { settings with unboundVariables := .zero } b ≠ .error (.unboundVariable v))
      ∧ ((∀ v, e.eval { settings with unboundVariables := .error } b ≠ .error (.unboundVariable v)) →
          e.eval { settings with unboundVariables := .zero } b
            = e.eval { settings with unboundVariables := .error } b) := by
  have division := forgives_divisionByZero settings b
  have missing := forgives_unboundVariable settings b
  refine ⟨⟨fun zero => ?_, fun other => division.eval_eq rfl ?_⟩, ?_, fun v error => ?_,
    fun other => missing.eval_eq rfl ?_⟩
  · exact division.not_forgiven_of_eval (by simp) zero rfl
  · rintro err error rfl
    exact other error
  · exact eval_congr rfl (value_congr rfl fun v _ => lookup_orZero settings b v)
  · exact missing.not_forgiven_of_eval (by simp) error ⟨v, rfl⟩
  · rintro err error ⟨v, rfl⟩
    exact other v error

/-- The root of a negative number, and behind it a variable divided by zero. -/
def threeFaults : Expr :=
  binary .add (call .sqrt [num (-1)]) (binary .div (var .y) (num 0))

/-- The first fault is forgiven by neither policy, and it hides those that are. -/
theorem eval_lenient_threeFaults :
    threeFaults.eval {} .empty ≠ .error .divisionByZero
      ∧ threeFaults.eval { divisionByZero := .ieee754 } .empty = threeFaults.eval {} .empty
      ∧ (∀ v, threeFaults.eval {} .empty ≠ .error (.unboundVariable v))
      ∧ threeFaults.eval { unboundVariables := .zero } .empty = threeFaults.eval {} .empty := by
  have shallow : ¬ 64 < threeFaults.depth := by
    rw [depth_eq_height]
    decide
  have root : threeFaults.eval {} .empty = .error (.domain (.negativeRoot (-1))) :=
    (if_neg shallow).trans (by decide)
  have division : threeFaults.eval {} .empty ≠ .error .divisionByZero := by simp [root]
  have missing : ∀ v, threeFaults.eval {} .empty ≠ .error (.unboundVariable v) := by simp [root]
  obtain ⟨⟨-, same⟩, -, -, same'⟩ := eval_lenient {} .empty threeFaults
  exact ⟨division, same division, missing, same' missing⟩

end Expr

end UnitCalc.Formula
