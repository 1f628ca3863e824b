import UnitCalc.Proofs.Formula.PostOrder

/-!
# `Proofs.Formula.Variables` — what evaluation reads

Of the bindings, evaluation reads the variables of the tree and nothing else (`eval_variables`). Each of them
is looked up at the nodes where it stands, and a lookup is all that a value owes to the bindings
(`value_congr`). Where a variable without a value is an error, no variable of a tree with a value can be
missing, since evaluation skips no node.

The variables are found with a work list, and the nodes that fail are told in post-order. Both go through the
same nodes (`mem_postorder`).
-/

namespace UnitCalc.Formula.Expr

variable {settings settings' : Settings} {b b' : Bindings} {e : Expr} {err : EvalError}

/-! ## Lookups -/

theorem values_congr_of_forall {es : List Expr}
    (each : ∀ e ∈ es, e.value settings b = e.value settings' b') :
    values settings b es = values settings' b' es := by
  induction es with
  | nil => rfl
  | cons e es ih =>
    obtain ⟨first, others⟩ := List.forall_mem_cons.1 each
    rw [values, values, first, ih others]

/-- Under one policy for divisions, the lookups at the nodes of a tree decide its value. -/
theorem value_congr (division : settings.divisionByZero = settings'.divisionByZero)
    (lookups : ∀ v, var v ∈ e.nodes → settings.lookup b v = settings'.lookup b' v) :
    e.value settings b = e.value settings' b' := by
  induction e with
  | num | const => rfl
  | var v => exact lookups v List.mem_cons_self
  | neg operand ih =>
    rw [value, value, ih fun v hv => lookups v (List.mem_cons_of_mem _ hv)]
  | binary op left right ihl ihr =>
    have first := ihl fun v hv => lookups v (List.mem_cons_of_mem _ (List.mem_append_left _ hv))
    have second := ihr fun v hv => lookups v (List.mem_cons_of_mem _ (List.mem_append_right _ hv))
    rw [value, value, first, second, division]
  | call f args ih =>
    have each : ∀ e ∈ args, e.value settings b = e.value settings' b' := fun e he =>
      ih e he fun v hv => lookups v (List.mem_cons_of_mem _ (mem_nodesAll.2 ⟨e, he, hv⟩))
    rw [value, value, values_congr_of_forall each, division]

/-- The depth is found before anything is read. -/
theorem eval_congr (depth : settings.maxDepth = settings'.maxDepth)
    (value : e.value settings b = e.value settings' b') : e.eval settings b = e.eval settings' b' := by
  rw [eval, eval, depth, value]

/-! ## Nodes that fail -/

theorem mem_postorderAll {es : List Expr} {n : Expr}
    (each : ∀ e ∈ es, n ∈ e.postorder ↔ n ∈ e.nodes) : n ∈ postorderAll es ↔ n ∈ nodesAll es := by
  induction es with
  | nil => rfl
  | cons e es ih =>
    obtain ⟨first, others⟩ := List.forall_mem_cons.1 each
    rw [postorderAll, nodesAll, List.mem_append, List.mem_append, first, ih others]

/-- The nodes in post-order are the nodes from the root down. -/
theorem mem_postorder {n : Expr} : n ∈ e.postorder ↔ n ∈ e.nodes := by
  have root {e : Expr} (operands : n ∈ postorderAll e.children ↔ n ∈ nodesAll e.children) :
      n ∈ e.postorder ↔ n ∈ e.nodes := by
    rw [postorder_eq, nodes_eq, List.mem_append, List.mem_singleton, List.mem_cons, operands, or_comm]
  induction e with
  | num | var | const => exact root .rfl
  | neg operand ih => exact root (mem_postorderAll (List.forall_mem_singleton.2 ih))
  | binary op left right ihl ihr =>
    exact root (mem_postorderAll (List.forall_mem_cons.2 ⟨ihl, List.forall_mem_singleton.2 ihr⟩))
  | call f args ih => exact root (mem_postorderAll ih)

theorem value_of_eval_eq_ok {x : Float} (h : e.eval settings b = .ok x) : e.value settings b = .ok x := by
  rw [eval] at h
  split at h
  · cases h
  · exact h

/-- Any error but that of a tree that is too deep is the error of its value. -/
theorem value_of_eval_eq_error (h : e.eval settings b = .error err) (shallow : ∀ limit, err ≠ .tooDeep limit) :
    e.value settings b = .error err := by
  rw [eval] at h
  split at h
  · exact absurd (Except.error.inj h).symm (shallow _)
  · exact h

/-- An error comes from a node that fails. -/
theorem exists_fails (h : e.value settings b = .error err) : ∃ n ∈ e.nodes, Fails settings b n err := by
  obtain ⟨n, hn, fails⟩ := ((outcome_value e).firstFailure h).exists_mem
  exact ⟨n, mem_postorder.1 hn, fails⟩

/-- Only a variable fails for a variable without a value, and it fails for itself. -/
theorem Fails.of_unboundVariable {n : Expr} {v : Var} (h : Fails settings b n (.unboundVariable v)) :
    n = var v ∧ b.get v = none := by
  cases h with
  | unbound _ free => exact ⟨rfl, free⟩
  | operator fails => exact fails.ofOperation.elim
  | call fails => exact fails.ofOperation.elim

/-! ## Evaluation -/

/-- **Evaluation reads the variables of the tree and nothing else.** Bindings that agree on them give the same
result. A variable that is missed is one of them and has no value. And where a variable without a value is an
error, a tree has a value only if all its variables have one. -/
theorem eval_variables (settings : Settings) (b : Bindings) (e : Expr) :
    (∀ b', (∀ v ∈ e.variables, b.get v = b'.get v) → e.eval settings b = e.eval settings b')
      ∧ (∀ v, e.eval settings b = .error (.unboundVariable v) → v ∈ e.variables ∧ b.get v = none)
      ∧ (settings.unboundVariables = .error → ∀ x, e.eval settings b = .ok x →
          ∀ v ∈ e.variables, ∃ y, b.get v = some y) := by
  refine ⟨?_, ?_, ?_⟩
  · intro b' agree
    refine eval_congr rfl (value_congr rfl ?_)
    intro v occurs
    rw [Settings.lookup, Settings.lookup, agree v (mem_variables.2 occurs)]
  · intro v failed
    obtain ⟨n, node, fails⟩ := exists_fails (value_of_eval_eq_error failed fun _ deep => by cases deep)
    obtain ⟨rfl, free⟩ := fails.of_unboundVariable
    exact ⟨mem_variables.2 node, free⟩
  · intro policy x run v occurs
    have clean := (outcome_value e).clean (value_of_eval_eq_ok run)
    have node : var v ∈ e.postorder := mem_postorder.2 (mem_variables.1 occurs)
    refine Option.ne_none_iff_exists'.1 fun free => ?_
    exact clean _ node _ (.unbound policy free)

/-- The larger of a quotient and its divisor. -/
def quotientOrDivisor : Expr :=
  call .max [binary .div (var .x) (var .y), var .y]

/-- It makes no difference to `x` and `y` whether `z` has a value, and without `y` there is none. -/
theorem eval_variables_quotientOrDivisor :
    (∀ v ∈ quotientOrDivisor.variables, (Bindings.ofXYZ 3 2 1).get v = ((Bindings.ofX 3).set .y 2).get v)
      ∧ quotientOrDivisor.eval {} (.ofXYZ 3 2 1) = quotientOrDivisor.eval {} ((Bindings.ofX 3).set .y 2)
      ∧ quotientOrDivisor.eval {} (.ofX 3) = .error (.unboundVariable .y)
      ∧ .y ∈ quotientOrDivisor.variables ∧ (Bindings.ofX 3).get .y = none
      ∧ quotientOrDivisor.eval {} (.ofXYZ 3 2 1) = .ok 2
      ∧ ∀ v ∈ quotientOrDivisor.variables, ∃ y, (Bindings.ofXYZ 3 2 1).get v = some y := by
  have shallow : ¬ 64 < quotientOrDivisor.depth := by
    rw [depth_eq_height]
    decide
  have agree : ∀ v ∈ quotientOrDivisor.variables,
      (Bindings.ofXYZ 3 2 1).get v = ((Bindings.ofX 3).set .y 2).get v := by
    intro v occurs
    have node := mem_variables.1 occurs
    cases v with
    | x | y => rfl
    | z => simp [quotientOrDivisor, nodes, nodesAll] at node
  have missing : quotientOrDivisor.eval {} (.ofX 3) = .error (.unboundVariable .y) :=
    (if_neg shallow).trans rfl
  have run : quotientOrDivisor.eval {} (.ofXYZ 3 2 1) = .ok 2 :=
    (if_neg shallow).trans (by decide)
  obtain ⟨occurs, free⟩ := (eval_variables {} (.ofX 3) quotientOrDivisor).2.1 .y missing
  obtain ⟨same, -, all⟩ := eval_variables {} (.ofXYZ 3 2 1) quotientOrDivisor
  exact ⟨agree, same _ agree, missing, occurs, free, run, all rfl 2 run⟩

end UnitCalc.Formula.Expr
