import UnitCalc.Formula.Expr

/-!
# `Proofs.Formula.Tree` — the nodes of a tree

A tree is examined with work lists, so that its depth costs no recursion. This module gives the work
lists their meaning. The depth that `deepest` finds is the height of the tree (`depth_eq_height`), and
the variables that `collect` finds are those that stand at some node (`mem_variables`).

Conditions on a whole tree are conditions on its nodes: `Literals` and `CallsAccepted`. Both hold of a
tree when they hold of its operands and at its root.
-/

namespace UnitCalc.Formula.Expr

/-- Induction on trees, with the hypothesis for every argument of a call. -/
@[elab_as_elim, induction_eliminator]
theorem induct {motive : Expr → Prop} (num : ∀ value, motive (num value)) (var : ∀ v, motive (var v))
    (const : ∀ c, motive (const c)) (neg : ∀ operand, motive operand → motive (neg operand))
    (binary : ∀ op left right, motive left → motive right → motive (binary op left right))
    (call : ∀ f args, (∀ e ∈ args, motive e) → motive (call f args)) : ∀ e, motive e
  | .num value => num value
  | .var v => var v
  | .const c => const c
  | .neg operand => neg operand (induct num var const neg binary call operand)
  | .binary op left right =>
    binary op left right (induct num var const neg binary call left)
      (induct num var const neg binary call right)
  | .call f args => call f args fun e _ => induct num var const neg binary call e

/-! ## Height -/

attribute [simp] height heightAll

theorem height_pos (e : Expr) : 0 < e.height := by
  cases e <;> simp [height]

theorem height_eq (e : Expr) : e.height = heightAll e.children + 1 := by
  cases e <;> simp [height, heightAll, children]

theorem heightAll_le {es : List Expr} {n : Nat} : heightAll es ≤ n ↔ ∀ e ∈ es, e.height ≤ n := by
  induction es with
  | nil => simp [heightAll]
  | cons e es ih => rw [heightAll, Nat.max_le, ih, List.forall_mem_cons]

/-- The trees of a list, one level down, stay above level `n`. -/
theorem heightAll_add_le {es : List Expr} {level n : Nat} (h : level ≤ n) :
    heightAll es + level ≤ n ↔ ∀ e ∈ es, e.height + (level + 1) ≤ n + 1 := by
  rw [← Nat.le_sub_iff_add_le h, heightAll_le]
  refine forall_congr' fun e => imp_congr_right ?_
  intro _
  omega

/-- The deepest level on a work list is bounded by what bounds the levels of all its trees. -/
theorem deepest_le {work : List (Expr × Nat)} {found n : Nat} :
    deepest work found ≤ n ↔ found ≤ n ∧ ∀ p ∈ work, p.1.height + p.2 ≤ n + 1 := by
  induction work, found using deepest.induct with
  | case1 found => simp [deepest]
  | case2 found e level rest ih =>
    have height := height_eq e
    rw [deepest, ih]
    simp only [List.mem_append, List.mem_map, List.forall_mem_cons, or_imp, forall_and,
      forall_exists_index, and_imp, forall_apply_eq_imp_iff₂, Nat.max_le]
    -- both ways: `e` is one higher than its operands, which wait one level further in
    constructor
    · rintro ⟨⟨found_le, level_le⟩, below, others⟩
      have operands := (heightAll_add_le level_le).2 below
      exact ⟨found_le, by omega, others⟩
    · rintro ⟨found_le, here, others⟩
      have level_le : level ≤ n := by omega
      exact ⟨⟨found_le, level_le⟩, (heightAll_add_le level_le).1 (by omega), others⟩

/-- **The depth of a tree is its height.** -/
theorem depth_eq_height (e : Expr) : e.depth = e.height := by
  -- `deepest_le` compares with a bound, so the two numbers are shown to have the same bounds
  have bound : ∀ n, e.depth ≤ n ↔ e.height ≤ n := by
    intro n
    rw [depth, deepest_le]
    simp
  exact Nat.le_antisymm ((bound _).2 Nat.le.refl) ((bound _).1 Nat.le.refl)

/-! ## Nodes -/

mutual

/-- The tree and all trees below it, from the root down and from left to right. -/
def nodes : Expr → List Expr
  | num x => [num x]
  | var v => [var v]
  | const c => [const c]
  | neg operand => neg operand :: operand.nodes
  | binary op left right => binary op left right :: (left.nodes ++ right.nodes)
  | call f args => call f args :: nodesAll args

/-- The nodes of the trees of a list. -/
def nodesAll : List Expr → List Expr
  | [] => []
  | e :: es => e.nodes ++ nodesAll es

end

attribute [simp] nodes nodesAll

theorem mem_nodesAll {n : Expr} {es : List Expr} : n ∈ nodesAll es ↔ ∃ e ∈ es, n ∈ e.nodes := by
  induction es with
  | nil => simp [nodesAll]
  | cons e es ih => simp [nodesAll, ih]

theorem nodes_eq (e : Expr) : e.nodes = e :: nodesAll e.children := by
  cases e <;> simp [nodes, nodesAll, children]

theorem nodesAll_append (es fs : List Expr) : nodesAll (es ++ fs) = nodesAll es ++ nodesAll fs := by
  induction es with
  | nil => rfl
  | cons e es ih => simp [nodesAll, ih]

/-- The variables on a work list are those at the nodes of its trees. -/
theorem mem_collect {v : Var} {work : List Expr} : v ∈ collect work ↔ var v ∈ nodesAll work := by
  induction work using collect.induct with
  | case1 => simp [collect, nodesAll]
  | case2 w rest ih => simp [collect, nodesAll, nodes, ih]
  | case3 e rest other ih =>
    -- a tree that is no variable is replaced by its operands, and they have its other nodes
    have not_var : var v ≠ e := fun h => other v h.symm
    rw [collect, ih, nodesAll_append, nodesAll, nodes_eq e]
    · simp [not_var]
    · exact other

/-- **The variables of a tree** are those that stand at some node. -/
theorem mem_variables {v : Var} {e : Expr} : v ∈ e.variables ↔ var v ∈ e.nodes := by
  have known : v ∈ Var.all := by cases v <;> decide
  simp [Expr.variables, known, mem_collect, nodesAll]

/-! ## Conditions on all nodes -/

/-- Every literal of the tree satisfies `P`. -/
def Literals (P : Float → Prop) (e : Expr) : Prop :=
  ∀ x, num x ∈ e.nodes → P x

/-- Every call of the tree has a number of arguments that its function accepts. -/
def CallsAccepted (e : Expr) : Prop :=
  ∀ f args, call f args ∈ e.nodes → f.arity.accepts args.length = true

section Literals

variable {P : Float → Prop}

@[simp] theorem literals_num {x : Float} : Literals P (num x) ↔ P x := by
  simp [Literals, nodes]

@[simp] theorem literals_var {v : Var} : Literals P (var v) := by
  simp [Literals, nodes]

@[simp] theorem literals_const {c : Const} : Literals P (const c) := by
  simp [Literals, nodes]

@[simp] theorem literals_neg {e : Expr} : Literals P (neg e) ↔ Literals P e := by
  simp [Literals, nodes]

@[simp] theorem literals_binary {op : BinOp} {l r : Expr} :
    Literals P (binary op l r) ↔ Literals P l ∧ Literals P r := by
  simp [Literals, nodes, or_imp, forall_and]

@[simp] theorem literals_call {f : Func} {args : List Expr} :
    Literals P (call f args) ↔ ∀ e ∈ args, Literals P e := by
  simp only [Literals, nodes, List.mem_cons, reduceCtorEq, false_or, mem_nodesAll]
  exact ⟨fun h e he x hx => h x ⟨e, he, hx⟩, fun h x ⟨e, he, hx⟩ => h e he x hx⟩

end Literals

@[simp] theorem callsAccepted_num {x : Float} : CallsAccepted (num x) := by
  simp [CallsAccepted, nodes]

@[simp] theorem callsAccepted_var {v : Var} : CallsAccepted (var v) := by
  simp [CallsAccepted, nodes]

@[simp] theorem callsAccepted_const {c : Const} : CallsAccepted (const c) := by
  simp [CallsAccepted, nodes]

@[simp] theorem callsAccepted_neg {e : Expr} : CallsAccepted (neg e) ↔ CallsAccepted e := by
  simp [CallsAccepted, nodes]

@[simp] theorem callsAccepted_binary {op : BinOp} {l r : Expr} :
    CallsAccepted (binary op l r) ↔ CallsAccepted l ∧ CallsAccepted r := by
  simp [CallsAccepted, nodes, or_imp, forall_and]

@[simp] theorem callsAccepted_call {f : Func} {args : List Expr} :
    CallsAccepted (call f args) ↔
      f.arity.accepts args.length = true ∧ ∀ e ∈ args, CallsAccepted e := by
  simp only [CallsAccepted, nodes, List.mem_cons, call.injEq, mem_nodesAll]
  constructor
  · intro h
    exact ⟨h f args (.inl ⟨rfl, rfl⟩), fun e he g bs hg => h g bs (.inr ⟨e, he, hg⟩)⟩
  · rintro ⟨here, below⟩ g bs (⟨rfl, rfl⟩ | ⟨e, he, hg⟩)
    · exact here
    · exact below e he g bs hg

end UnitCalc.Formula.Expr
