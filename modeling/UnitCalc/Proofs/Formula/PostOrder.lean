import UnitCalc.Formula.Eval
import UnitCalc.Proofs.Formula.Operations
import UnitCalc.Proofs.Formula.Tree

/-!
# `Proofs.Formula.PostOrder` — the first error wins

Evaluation goes through the nodes of a tree in post-order, the operands of a node from left to right and then
the node. Each node is applied to the values of its operands, and the first node that fails on them gives the
error of the whole tree (`eval_postorder`). This holds of every tree, parsed or not.

The values that a node is applied to are those of plain arithmetic, which never fails (`Expr.plain`). That is
no restriction, since nothing before the first failing node has failed. What a computation makes of a list of
nodes is its `Outcome`, and outcomes are put together as computations and lists are.
-/

namespace UnitCalc.Formula.Expr

/-! ## Nodes in post-order -/

mutual

/-- The tree and all trees below it, from left to right and from the leaves up. -/
def postorder : Expr → List Expr
  | num x => [num x]
  | var v => [var v]
  | const c => [const c]
  | neg operand => operand.postorder ++ [neg operand]
  | binary op left right => left.postorder ++ (right.postorder ++ [binary op left right])
  | call f args => postorderAll args ++ [call f args]

/-- The nodes of the trees of a list. -/
def postorderAll : List Expr → List Expr
  | [] => []
  | e :: es => e.postorder ++ postorderAll es

end

variable {settings : Settings} {b : Bindings}

mutual

/-- The value of a tree in plain arithmetic, where nothing fails. A variable without a value is zero. -/
def plain (b : Bindings) : Expr → Float
  | num x => x
  | const c => c.value
  | var v => (b.get v).getD 0
  | neg operand => -operand.plain b
  | binary op left right => op.result (left.plain b) (right.plain b)
  | call f args => f.result (plainAll b args)

/-- The values of a list of trees in plain arithmetic. -/
def plainAll (b : Bindings) : List Expr → List Float
  | [] => []
  | e :: es => e.plain b :: plainAll b es

end

attribute [simp] postorder postorderAll plain plainAll

/-- The node at the root of the tree fails on the values of its operands. -/
inductive Fails (settings : Settings) (b : Bindings) : Expr → EvalError → Prop
  | unbound {v : Var} (error : settings.unboundVariables = .error) (free : b.get v = none) :
      Fails settings b (var v) (.unboundVariable v)
  | operator {op : BinOp} {left right : Expr} {err : EvalError}
      (fails : OperatorFails settings.divisionByZero op (left.plain b) (right.plain b) err) :
      Fails settings b (binary op left right) err
  | call {f : Func} {args : List Expr} {err : EvalError}
      (fails : CallFails settings.divisionByZero f (plainAll b args) err) : Fails settings b (call f args) err

/-- None of the nodes fails. -/
def Clean (settings : Settings) (b : Bindings) (ns : List Expr) : Prop :=
  ∀ n ∈ ns, ∀ err, ¬ Fails settings b n err

/-- The first of the nodes that fails does so with the error `err`. -/
inductive FirstFailure (settings : Settings) (b : Bindings) : List Expr → EvalError → Prop
  | here {n : Expr} {ns : List Expr} {err : EvalError} (fails : Fails settings b n err) :
      FirstFailure settings b (n :: ns) err
  | later {n : Expr} {ns : List Expr} {err : EvalError} (clean : ∀ err, ¬ Fails settings b n err)
      (rest : FirstFailure settings b ns err) : FirstFailure settings b (n :: ns) err

variable {ns ms : List Expr} {err : EvalError}

theorem clean_append : Clean settings b (ns ++ ms) ↔ Clean settings b ns ∧ Clean settings b ms :=
  List.forall_mem_append

/-- The first failure of nodes one after another is that of the former, or that of the latter where the
    former are clean. -/
theorem FirstFailure.of_append (h : FirstFailure settings b (ns ++ ms) err) :
    FirstFailure settings b ns err ∨ Clean settings b ns ∧ FirstFailure settings b ms err := by
  induction ns with
  | nil => exact .inr ⟨List.forall_mem_nil _, h⟩
  | cons n ns ih =>
    cases h with
    | here fails => exact .inl (.here fails)
    | later clean rest =>
      rcases ih rest with first | ⟨others, first⟩
      · exact .inl (.later clean first)
      · exact .inr ⟨List.forall_mem_cons.2 ⟨clean, others⟩, first⟩

theorem firstFailure_of_split {n : Expr} (clean : Clean settings b ns) (fails : Fails settings b n err) :
    FirstFailure settings b (ns ++ n :: ms) err := by
  induction ns with
  | nil => exact .here fails
  | cons m ns ih =>
    obtain ⟨first, others⟩ := List.forall_mem_cons.1 clean
    exact .later first (ih others)

theorem FirstFailure.exists_mem (h : FirstFailure settings b ns err) : ∃ n ∈ ns, Fails settings b n err := by
  induction h with
  | here fails => exact ⟨_, List.mem_cons_self, fails⟩
  | later _ _ ih =>
    obtain ⟨n, hn, fails⟩ := ih
    exact ⟨n, List.mem_cons_of_mem _ hn, fails⟩

/-- Nodes are clean or one of them fails first. -/
theorem clean_or_firstFailure (settings : Settings) (b : Bindings) (ns : List Expr) :
    Clean settings b ns ∨ ∃ err, FirstFailure settings b ns err := by
  induction ns with
  | nil => exact .inl (List.forall_mem_nil _)
  | cons n ns ih =>
    by_cases fails : ∃ err, Fails settings b n err
    · obtain ⟨err, fails⟩ := fails
      exact .inr ⟨err, .here fails⟩
    · rw [not_exists] at fails
      rcases ih with clean | ⟨err, first⟩
      · exact .inl (List.forall_mem_cons.2 ⟨fails, clean⟩)
      · exact .inr ⟨err, .later fails first⟩

/-! ## Outcomes -/

/-- The computation gives the value `x` if the nodes are clean, and otherwise the error of the first one that
    fails. -/
structure Outcome {α : Type} (settings : Settings) (b : Bindings) (ns : List Expr) (x : α)
    (run : Except EvalError α) : Prop where
  value : Clean settings b ns → run = .ok x
  error : ∀ err, FirstFailure settings b ns err → run = .error err

section Outcome

variable {α β : Type} {x : α} {y : β} {run : Except EvalError α} {f : α → Except EvalError β}

/-- Where there is a value, the nodes are clean. -/
theorem Outcome.clean {z : α} (h : Outcome settings b ns x run) (value : run = .ok z) :
    Clean settings b ns := by
  rcases clean_or_firstFailure settings b ns with clean | ⟨err, first⟩
  · exact clean
  · rw [h.error err first] at value
    cases value

/-- Where there is an error, it is that of the first node that fails. -/
theorem Outcome.firstFailure (h : Outcome settings b ns x run) (error : run = .error err) :
    FirstFailure settings b ns err := by
  rcases clean_or_firstFailure settings b ns with clean | ⟨err', first⟩
  · rw [h.value clean] at error
    cases error
  · rw [h.error err' first] at error
    exact Except.error.inj error ▸ first

/-- Nodes that are computed with one after another. -/
theorem Outcome.bind (first : Outcome settings b ns x run) (second : Outcome settings b ms y (f x)) :
    Outcome settings b (ns ++ ms) y (run >>= f) := by
  constructor
  · intro clean
    obtain ⟨left, right⟩ := clean_append.1 clean
    rw [first.value left]
    exact second.value right
  · intro err fails
    rcases fails.of_append with left | ⟨clean, right⟩
    · rw [first.error err left]
      rfl
    · rw [first.value clean]
      exact second.error err right

/-- A single node. -/
theorem outcome_node {n : Expr} (value : (∀ err, ¬ Fails settings b n err) → run = .ok x)
    (error : ∀ err, Fails settings b n err → run = .error err) : Outcome settings b [n] x run := by
  constructor
  · intro clean
    exact value (List.forall_mem_singleton.1 clean)
  · intro err fails
    cases fails with
    | here fails => exact error err fails
    | later _ rest => cases rest

theorem outcome_nil : Outcome settings b [] x (.ok x) :=
  ⟨fun _ => rfl, nofun⟩

end Outcome

theorem outcome_values {es : List Expr}
    (each : ∀ e ∈ es, Outcome settings b e.postorder (e.plain b) (e.value settings b)) :
    Outcome settings b (postorderAll es) (plainAll b es) (values settings b es) := by
  induction es with
  | nil => exact outcome_nil
  | cons e es ih =>
    obtain ⟨first, others⟩ := List.forall_mem_cons.1 each
    rw [values, postorderAll, ← List.append_nil (postorderAll es)]
    exact first.bind ((ih others).bind outcome_nil)

/-- **The value of a tree is the outcome of its nodes in post-order.** -/
theorem outcome_value (e : Expr) : Outcome settings b e.postorder (e.plain b) (e.value settings b) := by
  induction e with
  | num x => exact outcome_node (fun _ => rfl) nofun
  | const c => exact outcome_node (fun _ => rfl) nofun
  | var v =>
    rw [value, plain]
    refine outcome_node (fun clean => ?_) ?_
    · rw [Settings.lookup]
      split
      · next found => rw [found, Option.getD_some]
      · next free _ => rw [free, Option.getD_none]
      · next free error => exact absurd (.unbound error free) (clean _)
    · rintro err ⟨error, free⟩
      rw [Settings.lookup, free, error]
  | neg operand ih =>
    exact ih.bind (outcome_node (fun _ => rfl) nofun)
  | binary op left right ihl ihr =>
    refine ihl.bind (ihr.bind (outcome_node ?_ ?_))
    · intro clean
      exact BinOp.apply_of_not_fails fun err fails => clean err (.operator fails)
    · rintro err (_ | fails | _)
      exact fails.apply
  | call f args ih =>
    refine (outcome_values ih).bind (outcome_node ?_ ?_)
    · intro clean
      exact Func.apply_of_not_fails fun err fails => clean err (.call fails)
    · rintro err (_ | _ | fails)
      exact fails.apply

/-! ## Operands before their node -/

theorem postorder_eq (e : Expr) : e.postorder = postorderAll e.children ++ [e] := by
  cases e <;> simp [postorder, postorderAll, children]

/-- Right before each of the nodes stand the nodes of its operands. -/
def OperandsFirst (ns : List Expr) : Prop :=
  ∀ before n behind, ns = before ++ n :: behind → postorderAll n.children <:+ before

theorem OperandsFirst.append (h : OperandsFirst ns) (h' : OperandsFirst ms) : OperandsFirst (ns ++ ms) := by
  intro before n behind split
  rcases List.append_eq_append_iff.1 split with ⟨ks, rfl, later⟩ | ⟨ks, earlier, rest⟩
  · exact (h' ks n behind later).trans (List.suffix_append ns ks)
  · cases ks with
    | nil => exact (h' [] n behind rest.symm).trans List.nil_suffix
    | cons k ks =>
      obtain ⟨rfl, -⟩ := List.cons.inj rest
      exact h before n ks earlier

theorem operandsFirst_all {es : List Expr} (each : ∀ e ∈ es, OperandsFirst e.postorder) :
    OperandsFirst (postorderAll es) := by
  induction es with
  | nil =>
    intro before n behind split
    cases before <;> cases split
  | cons e es ih =>
    obtain ⟨first, others⟩ := List.forall_mem_cons.1 each
    exact first.append (ih others)

theorem OperandsFirst.root {e : Expr} (h : OperandsFirst (postorderAll e.children)) :
    OperandsFirst e.postorder := by
  intro before n behind split
  rw [postorder_eq] at split
  rcases List.eq_nil_or_concat behind with rfl | ⟨ks, k, rfl⟩
  · obtain ⟨rfl, last⟩ := List.append_inj' split rfl
    obtain ⟨rfl, -⟩ := List.cons.inj last
    exact List.suffix_rfl
  · rw [List.concat_eq_append, ← List.cons_append, ← List.append_assoc] at split
    exact h before n ks (List.append_inj' split rfl).1

theorem operandsFirst_postorder (e : Expr) : OperandsFirst e.postorder := by
  induction e with
  | num | var | const => exact .root (operandsFirst_all (List.forall_mem_nil _))
  | neg operand ih => exact .root (operandsFirst_all (List.forall_mem_singleton.2 ih))
  | binary op left right ihl ihr =>
    exact .root (operandsFirst_all (List.forall_mem_cons.2 ⟨ihl, List.forall_mem_singleton.2 ihr⟩))
  | call f args ih => exact .root (operandsFirst_all ih)

theorem postorder_subset {e : Expr} {es : List Expr} (he : e ∈ es) : e.postorder ⊆ postorderAll es := by
  induction es with
  | nil => cases he
  | cons c es ih =>
    rcases List.mem_cons.1 he with rfl | he
    · exact List.subset_append_left _ _
    · exact List.subset_append_of_subset_right _ (ih he)

/-- The operands of a node have their values where no node before it fails. -/
theorem value_of_operand {e n c : Expr} {before behind : List Expr}
    (split : e.postorder = before ++ n :: behind)
    (clean : Clean settings b before) (operand : c ∈ n.children) : c.value settings b = .ok (c.plain b) := by
  have inside := operandsFirst_postorder e before n behind split
  refine (outcome_value c).value fun m hm => ?_
  exact clean m (inside.subset (postorder_subset operand hm))

/-! ## Evaluation -/

/-- No node fails for the depth of the tree. -/
theorem Fails.ne_tooDeep {n : Expr} {limit : Nat} (h : Fails settings b n err) : err ≠ .tooDeep limit := by
  rintro rfl
  cases h with
  | operator fails => exact fails.ofOperation
  | call fails => exact fails.ofOperation

theorem FirstFailure.ne_tooDeep {limit : Nat} (h : FirstFailure settings b ns err) :
    err ≠ .tooDeep limit := by
  obtain ⟨n, -, fails⟩ := h.exists_mem
  exact fails.ne_tooDeep

/-- **Evaluation is plain post-order semantics with the first error winning.** A tree is too deep exactly if
    it is deeper than the limit. Any other tree has the error of the first node in post-order that fails on
    the values of its operands, or its value in plain arithmetic where no node fails. And no function reads an
    argument that is not there. -/
theorem eval_postorder (settings : Settings) (b : Bindings) (e : Expr) :
    (e.eval settings b = .error (.tooDeep settings.maxDepth) ↔ settings.maxDepth < e.depth)
      ∧ (e.depth ≤ settings.maxDepth →
        (∀ before n behind err, e.postorder = before ++ n :: behind →
          (∀ m ∈ before, ∀ err, ¬ Fails settings b m err) → Fails settings b n err →
          e.eval settings b = .error err ∧ ∀ c ∈ n.children, c.value settings b = .ok (c.plain b))
        ∧ ((∀ n ∈ e.postorder, ∀ err, ¬ Fails settings b n err) → e.eval settings b = .ok (e.plain b)))
      ∧ ∀ f xs, Func.read settings.divisionByZero f xs = some (f.apply settings.divisionByZero xs) := by
  have outcome : Outcome settings b e.postorder (e.plain b) (e.value settings b) := outcome_value e
  have within : e.depth ≤ settings.maxDepth → e.eval settings b = e.value settings b :=
    fun depth => if_neg (Nat.not_lt.2 depth)
  refine ⟨⟨?_, fun deep => if_pos deep⟩, fun depth => ⟨?_, ?_⟩, Func.read_eq settings.divisionByZero⟩
  · intro refused
    by_contra shallow
    rw [within (Nat.not_lt.1 shallow)] at refused
    rcases clean_or_firstFailure settings b e.postorder with clean | ⟨err, first⟩
    · rw [outcome.value clean] at refused
      cases refused
    · rw [outcome.error err first] at refused
      exact first.ne_tooDeep (Except.error.inj refused)
  · intro before n behind err split clean fails
    rw [within depth]
    have first : FirstFailure settings b e.postorder err := by
      rw [split]
      exact firstFailure_of_split clean fails
    exact ⟨outcome.error err first, fun c operand => value_of_operand split clean operand⟩
  · intro clean
    rw [within depth]
    exact outcome.value clean

/-- A quotient by zero and the root of a negative number. -/
def twoFaults : Expr :=
  binary .add (binary .div (num 1) (num 0)) (call .sqrt [num (-1)])

/-- Of two faults the one on the left is the error. -/
theorem eval_postorder_left : twoFaults.eval {} .empty = .error .divisionByZero := by
  have order : twoFaults.postorder = [num 1, num 0] ++ binary .div (num 1) (num 0) ::
      [num (-1), call .sqrt [num (-1)], twoFaults] := rfl
  have literals : ∀ m ∈ [num 1, num 0], ∀ err, ¬ Fails {} .empty m err := by
    rintro m hm err fails
    cases fails <;> simp at hm
  have quotient : Fails {} .empty (binary .div (num 1) (num 0)) .divisionByZero :=
    .operator (.zeroDivisor rfl (by decide))
  have depth : twoFaults.depth ≤ 64 := by
    rw [depth_eq_height]
    decide
  exact (((eval_postorder {} .empty twoFaults).2.1 depth).1 _ _ _ _ order literals quotient).1

end UnitCalc.Formula.Expr
