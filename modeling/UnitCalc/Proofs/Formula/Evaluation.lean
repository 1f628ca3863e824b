import UnitCalc.Formula.Compiled
import UnitCalc.Proofs.Formula.Printing
import UnitCalc.Proofs.Formula.Variables

/-!
# `Proofs.Formula.Evaluation` — why a parsed formula has no value

The evaluator checks again what the parser has checked: the depth of the tree and the number of
arguments of every call. On a formula that was parsed under the same settings these checks never fail
(`compile_spec`), so that its errors are the three that depend on values: a division by zero, an argument
outside the domain of a function, and a variable without a value.

`Excuse` lists these errors with the policy under which they are errors at all. A tree fails at one of its
nodes, and where the calls are accepted, every node that fails has an excuse (`value_error`).
-/

namespace UnitCalc.Formula

/-! ## Operators and functions -/

/-- The errors of an operation on values. -/
def OperationError (policy : DivisionByZero) (err : EvalError) : Prop :=
  policy = .error ∧ err = .divisionByZero ∨ ∃ fault, err = .domain fault

variable {policy : DivisionByZero} {err : EvalError}

theorem OperatorFails.operationError {op : BinOp} {x y : Float} (h : OperatorFails policy op x y err) :
    OperationError policy err := by
  cases h with
  | zeroDivisor error => exact .inl ⟨error, rfl⟩
  | zeroBase error => exact .inl ⟨error, rfl⟩
  | fractionalPower => exact .inr ⟨_, rfl⟩

/-- A call with an accepted number of arguments never fails for their number. -/
theorem CallFails.operationError {f : Func} {xs : List Float} (accepted : f.arity.accepts xs.length = true)
    (h : CallFails policy f xs err) : OperationError policy err := by
  cases h with
  | argumentCount refused =>
    rw [accepted] at refused
    cases refused
  | power fails => exact fails.operationError
  | _ => exact .inr ⟨_, rfl⟩

/-! ## Trees -/

/-- The errors that the values of a formula can cause, where `nodes` are the nodes of its tree. -/
inductive Excuse (settings : Settings) (b : Bindings) (nodes : List Expr) : EvalError → Prop
  | divisionByZero (policy : settings.divisionByZero = .error) : Excuse settings b nodes .divisionByZero
  | domain (fault : DomainFault) : Excuse settings b nodes (.domain fault)
  | unbound {v : Var} (policy : settings.unboundVariables = .error) (free : b.get v = none)
      (occurs : .var v ∈ nodes) : Excuse settings b nodes (.unboundVariable v)

namespace Excuse

variable {settings : Settings} {b : Bindings} {nodes : List Expr}

theorem of_operation (h : OperationError settings.divisionByZero err) :
    Excuse settings b nodes err := by
  rcases h with ⟨policy, rfl⟩ | ⟨fault, rfl⟩
  · exact .divisionByZero policy
  · exact .domain fault

end Excuse

namespace Expr

variable {settings : Settings} {b : Bindings}

theorem length_plainAll (es : List Expr) : (plainAll b es).length = es.length := by
  induction es with
  | nil => rfl
  | cons e es ih => rw [plainAll, List.length_cons, List.length_cons, ih]

/-- **Every error of a tree with accepted calls is excused**, whatever its depth. -/
theorem value_error {e : Expr} (calls : e.CallsAccepted) (h : e.value settings b = .error err) :
    Excuse settings b e.nodes err := by
  obtain ⟨n, node, fails⟩ := exists_fails h
  cases fails with
  | unbound policy free => exact .unbound policy free node
  | operator fails => exact .of_operation fails.operationError
  | @call f args _ fails =>
    -- there are as many values as arguments, so the function accepts their number
    have accepted : f.arity.accepts (plainAll b args).length = true := by
      rw [length_plainAll]
      exact calls f args node
    exact .of_operation (fails.operationError accepted)

/-- A tree that is not too deep either has a value or an excused error. -/
theorem eval_spec {e : Expr} (calls : e.CallsAccepted) (depth : e.depth ≤ settings.maxDepth) :
    (∃ x, e.eval settings b = .ok x) ∨
      ∃ err, e.eval settings b = .error err ∧ Excuse settings b e.nodes err := by
  rw [eval, if_neg (Nat.not_lt.2 depth)]
  cases h : e.value settings b with
  | ok x => exact .inl ⟨x, rfl⟩
  | error err => exact .inr ⟨err, rfl, value_error calls h⟩

end Expr

/-! ## Compiled formulas -/

/-- A compiled formula keeps its text and the tree that the text parses to. -/
theorem compile_eq_ok {settings : Settings} {s : String} {f : Compiled} :
    compile settings s = .ok f ↔ f.source = s ∧ parseUpTo settings.maxDepth s = .ok f.tree := by
  obtain ⟨source, tree⟩ := f
  rw [compile]
  cases parseUpTo settings.maxDepth s <;> simp [eq_comm]

/-- A text with the words of a written tree has the value of the tree. -/
theorem evaluate_of_words {settings : Settings} {b : Bindings} {s : String} {e : Expr} {x : Float}
    (same : words s = words e.text) (finite : e.Literals fun x => x.isFinite = true)
    (calls : e.CallsAccepted) (depth : e.normal.depth ≤ settings.maxDepth)
    (value : e.value settings b = .ok x) : evaluate settings b s = .ok x := by
  have compiled : compile settings s = .ok ⟨s, e.normal⟩ :=
    compile_eq_ok.2 ⟨rfl, parseUpTo_of_words same finite calls depth⟩
  have run : e.normal.eval settings b = .ok x := by
    rw [Expr.eval, if_neg (Nat.not_lt.2 depth), Expr.value_normal, value]
  rw [evaluate, compiled]
  show Compiled.eval settings b _ = _
  rw [Compiled.eval, run]

/-- A compiled formula either has a value or an excused error. -/
theorem Compiled.eval_spec {settings : Settings} {s : String} {f : Compiled}
    (h : compile settings s = .ok f) (b : Bindings) :
    (∃ x, f.eval settings b = .ok x) ∨
      ∃ err, f.eval settings b = .error (.eval err) ∧ Excuse settings b f.tree.nodes err := by
  obtain ⟨ps, -, -, adm⟩ := accepted_of_parseUpTo (compile_eq_ok.1 h).2
  rw [Compiled.eval]
  rcases Expr.eval_spec adm.calls adm.depth (b := b) with ⟨x, run⟩ | ⟨err, run, excuse⟩
  · exact .inl ⟨x, by rw [run]⟩
  · exact .inr ⟨err, by rw [run], excuse⟩

/-- The words of `1/x` are a quotient, on one level, with two levels in its tree. -/
theorem accepted_reciprocal : Accepted 2 (words "1/x") (.binary .div (.num 1) (.var .x)) := by
  refine ⟨[(.number 1, 1), (.slash, 1), (.name "x", 1)], by decide +kernel, ?_, ?_⟩
  · exact .expression (.additive (.product (.multiplicative (.unary (.power (.num 1)))) rfl
      (.unary (.power (.var .x)))))
  · refine ⟨by decide, ?_, by simp, ?_⟩
    · intro x n hx
      obtain ⟨rfl, -⟩ : x = 1 ∧ n = 1 := by simpa using hx
      decide
    · rw [Expr.depth_eq_height]
      decide

/-- **What the parser has checked, the evaluator does not refuse.** The tree of a compiled formula keeps
    the depth limit, its literals are finite and not negative, and its calls have accepted numbers of
    arguments. So it has a value, or divides by zero, or leaves the domain of a function, or has a
    variable without a value. Where infinities and zeros stand in, only the domains are left. -/
theorem compile_spec {settings : Settings} {s : String} {f : Compiled}
    (h : compile settings s = .ok f) :
    f.tree.depth ≤ settings.maxDepth
      ∧ (f.tree.Literals fun x => x.isFinite = true ∧ Double.isNegative x = false)
      ∧ f.tree.CallsAccepted
      ∧ (∀ b, (∃ x, f.eval settings b = .ok x)
          ∨ f.eval settings b = .error (.eval .divisionByZero)
          ∨ (∃ fault, f.eval settings b = .error (.eval (.domain fault)))
          ∨ ∃ v, f.eval settings b = .error (.eval (.unboundVariable v))
            ∧ v ∈ f.tree.variables ∧ b.get v = none)
      ∧ (settings.divisionByZero = .ieee754 → settings.unboundVariables = .zero → ∀ b,
          (∃ x, f.eval settings b = .ok x)
            ∨ ∃ fault, f.eval settings b = .error (.eval (.domain fault))) := by
  have parsed := (compile_eq_ok.1 h).2
  obtain ⟨ps, -, -, adm⟩ := accepted_of_parseUpTo parsed
  refine ⟨adm.depth, literals_of_parseUpTo parsed, adm.calls, ?_, ?_⟩
  · intro b
    rcases Compiled.eval_spec h b with value | ⟨err, run, excuse⟩
    · exact .inl value
    · cases excuse with
      | divisionByZero _ => exact .inr (.inl run)
      | domain fault => exact .inr (.inr (.inl ⟨fault, run⟩))
      | @unbound v _ free occurs =>
        exact .inr (.inr (.inr ⟨v, run, Expr.mem_variables.2 occurs, free⟩))
  · intro ieee zero b
    rcases Compiled.eval_spec h b with value | ⟨err, run, excuse⟩
    · exact .inl value
    · cases excuse with
      | divisionByZero policy => rw [ieee] at policy; cases policy
      | domain fault => exact .inr ⟨fault, run⟩
      | unbound policy _ _ => rw [zero] at policy; cases policy

/-- Without any bindings `1/x` has a value or a domain error, when neither a division by zero nor a
    variable without a value is an error. -/
theorem compile_spec_reciprocal :
    compile ⟨2, .ieee754, .zero⟩ "1/x" = .ok ⟨"1/x", .binary .div (.num 1) (.var .x)⟩
      ∧ ((∃ x, Compiled.eval ⟨2, .ieee754, .zero⟩ .empty ⟨"1/x", .binary .div (.num 1) (.var .x)⟩ = .ok x)
        ∨ ∃ fault, Compiled.eval ⟨2, .ieee754, .zero⟩ .empty ⟨"1/x", .binary .div (.num 1) (.var .x)⟩
          = .error (.eval (.domain fault))) := by
  have compiled : compile ⟨2, .ieee754, .zero⟩ "1/x" = .ok ⟨"1/x", .binary .div (.num 1) (.var .x)⟩ :=
    compile_eq_ok.2 ⟨rfl, parseUpTo_of_accepted accepted_reciprocal⟩
  exact ⟨compiled, (compile_spec compiled).2.2.2.2 rfl rfl .empty⟩

end UnitCalc.Formula
