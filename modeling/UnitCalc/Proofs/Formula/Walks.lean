import Mathlib.Data.List.Perm.Basic
import UnitCalc.Proofs.Formula.Tree

/-!
# `Proofs.Formula.Walks` — a tree is walked in any order

The loops that measure a tree and look for its variables keep a work list: a tree is taken from it and
visited, and its operands are put there instead. Nothing depends on which tree is taken and on where its
operands are put. `Turn` leaves both open, so that a walk may take its trees from either end, or from
the middle.

One law carries every walk, by induction on its turns: what has been visited and the nodes of what still
waits are together the nodes of the tree (`Walk.perm`). So a walk ends after as many turns as the tree has
nodes, and has visited each of them once. Likewise the levels visited and the levels that wait have the same
maximum throughout (`Walk.deepest_eq`). With the recursion of `depth` and the nodes behind `variables` this
says what the two loops compute (`structural_walks`).
-/

namespace UnitCalc.Formula.Expr

variable {work work' visited : List (Expr × Nat)} {p : Expr × Nat}

/-! ## The recursive definitions -/

theorem heightAll_eq (es : List Expr) : heightAll es = (es.map height).foldr max 0 := by
  induction es with
  | nil => rfl
  | cons e es ih => rw [heightAll, ih, List.map_cons, List.foldr_cons]

/-- A tree is one level deeper than its deepest operand. -/
theorem depth_eq (e : Expr) : e.depth = (e.children.map depth).foldr max 0 + 1 := by
  have heights : e.children.map depth = e.children.map height :=
    List.map_congr_left fun d _ => depth_eq_height d
  rw [depth_eq_height, height_eq, heightAll_eq, heights]

theorem nodesAll_eq_flatMap (es : List Expr) : nodesAll es = es.flatMap nodes := by
  induction es with
  | nil => rfl
  | cons e es ih => rw [nodesAll, ih, List.flatMap_cons]

theorem length_nodesAll {es : List Expr} (each : ∀ e ∈ es, e.nodes.length = e.size) :
    (nodesAll es).length = sizeAll es := by
  induction es with
  | nil => rfl
  | cons e es ih =>
    obtain ⟨first, others⟩ := List.forall_mem_cons.1 each
    rw [nodesAll, List.length_append, first, ih others, sizeAll]

/-- The size of a tree counts its nodes. -/
theorem length_nodes (e : Expr) : e.nodes.length = e.size := by
  induction e with
  | num x | var v | const c => rfl
  | neg operand ih => rw [nodes, List.length_cons, ih, size]
  | binary op l r ihl ihr => rw [nodes, List.length_cons, List.length_append, ihl, ihr, size]
  | call f args ih => rw [nodes, List.length_cons, length_nodesAll ih, size]

/-! ## Walks -/

/-- The operands of a tree, one level further in. -/
def operands (p : Expr × Nat) : List (Expr × Nat) :=
  p.1.children.map fun child => (child, p.2 + 1)

/-- The nodes of the trees that wait. -/
def nodesOf (work : List (Expr × Nat)) : List Expr :=
  nodesAll (work.map Prod.fst)

/-- One of the trees that wait is visited, and its operands wait instead. -/
def Turn (work : List (Expr × Nat)) (p : Expr × Nat) (work' : List (Expr × Nat)) : Prop :=
  ∃ rest, work.Perm (p :: rest) ∧ work'.Perm (operands p ++ rest)

/-- Some turns, one after another, and what they visit. -/
inductive Walk : List (Expr × Nat) → List (Expr × Nat) → List (Expr × Nat) → Prop
  | start (work : List (Expr × Nat)) : Walk work [] work
  | turn {work work' work'' : List (Expr × Nat)} {p : Expr × Nat} {visited : List (Expr × Nat)}
      (first : Turn work p work') (later : Walk work' visited work'') : Walk work (p :: visited) work''

/-- The deepest level among some trees, or `found` if that is deeper. -/
def deepestOf (visited : List (Expr × Nat)) (found : Nat) : Nat :=
  visited.foldl (fun found p => max found p.2) found

/-- Whatever waits can be visited. -/
theorem exists_turn (some : work ≠ []) : ∃ p work', Turn work p work' := by
  obtain ⟨p, rest, rfl⟩ := List.exists_cons_of_ne_nil some
  exact ⟨p, operands p ++ rest, rest, .refl _, .refl _⟩

theorem nodesOf_perm (order : work.Perm work') : (nodesOf work).Perm (nodesOf work') := by
  rw [nodesOf, nodesOf, nodesAll_eq_flatMap, nodesAll_eq_flatMap]
  exact (order.map Prod.fst).flatMap_right nodes

/-- A turn moves one node from those that wait to those that have been visited. -/
theorem Turn.perm (turn : Turn work p work') : (nodesOf work).Perm (p.1 :: nodesOf work') := by
  obtain ⟨rest, taken, put⟩ := turn
  have operands_fst : (operands p).map Prod.fst = p.1.children := by
    rw [operands, List.map_map]
    exact List.map_id _
  have opened : nodesOf (p :: rest) = p.1 :: nodesOf (operands p ++ rest) := by
    rw [nodesOf, nodesOf, List.map_cons, List.map_append, operands_fst, nodesAll, nodes_eq,
      nodesAll_append, List.cons_append]
  exact (nodesOf_perm taken).trans (opened ▸ ((nodesOf_perm put).symm.cons p.1))

/-- **What was visited and what waits are together the nodes** that waited at first. -/
theorem Walk.perm (walk : Walk work visited work') :
    (visited.map Prod.fst ++ nodesOf work').Perm (nodesOf work) := by
  induction walk with
  | start work => exact .refl _
  | turn first later ih => exact (ih.cons _).trans first.perm.symm

theorem deepest_perm (order : work.Perm work') (found : Nat) : deepest work found = deepest work' found := by
  have bound : ∀ n, deepest work found ≤ n ↔ deepest work' found ≤ n := by
    intro n
    simp only [deepest_le, order.mem_iff]
  exact Nat.le_antisymm ((bound _).2 Nat.le.refl) ((bound _).1 Nat.le.refl)

/-- **What was visited and what waits have the same deepest level** throughout a walk. -/
theorem Walk.deepest_eq (walk : Walk work visited work') (found : Nat) :
    deepest work found = deepest work' (deepestOf visited found) := by
  induction walk generalizing found with
  | start work => rfl
  | @turn work work' work'' p visited first later ih =>
    obtain ⟨rest, taken, put⟩ := first
    rw [deepest_perm taken, deepest, deepestOf, List.foldl_cons, ← deepestOf, ← ih]
    exact (deepest_perm put _).symm

/-- **The loops compute what the recursions do.** The depth of a tree is one more than the greatest depth of its
operands, and `1` if it has none; its variables are those that stand at some node, each once and in their own
order. Whatever order a walk takes, it can go on as long as anything waits, and it ends after as many turns as
the tree has nodes. Then it has visited every node once, the deepest level it has seen is the depth, and the
variables it has seen are the variables. -/
theorem structural_walks (e : Expr) :
    e.depth = (e.children.map depth).foldr max 0 + 1 ∧
      (∀ v, v ∈ e.variables ↔ var v ∈ e.nodes) ∧ e.variables.Sublist Var.all ∧
      ∀ visited work, Walk [(e, 1)] visited work →
        (work ≠ [] → ∃ p work', Turn work p work') ∧
        visited.length + sizeAll (work.map Prod.fst) = e.size ∧
        (work = [] → (visited.map Prod.fst).Perm e.nodes ∧ deepestOf visited 0 = e.depth ∧
          ∀ v, var v ∈ visited.map Prod.fst ↔ v ∈ e.variables) := by
  refine ⟨depth_eq e, fun v => mem_variables, List.filter_sublist, fun visited work walk => ?_⟩
  have whole : nodesOf [(e, 1)] = e.nodes := by simp [nodesOf, nodesAll]
  have nodes : (visited.map Prod.fst ++ nodesOf work).Perm e.nodes := whole ▸ walk.perm
  refine ⟨exists_turn, ?_, ?_⟩
  · have count := nodes.length_eq
    rw [List.length_append, List.length_map, nodesOf, length_nodes,
      length_nodesAll fun d _ => length_nodes d] at count
    exact count
  · rintro rfl
    have all : (visited.map Prod.fst).Perm e.nodes := by simpa [nodesOf, nodesAll] using nodes
    refine ⟨all, ?_, fun v => ?_⟩
    · rw [depth, walk.deepest_eq, deepest]
    · rw [all.mem_iff, mem_variables]

/-- The tree of `x / -y`, visited from the right. -/
theorem structural_walks_fromRight :
    let e := binary .div (var .x) (neg (var .y))
    let visited := [(e, 1), (neg (var .y), 2), (var .y, 3), (var .x, 2)]
    Walk [(e, 1)] visited [] ∧ deepestOf visited 0 = e.depth ∧
      ∀ v, var v ∈ visited.map Prod.fst ↔ v ∈ e.variables := by
  intro e visited
  have last : Walk [(var .x, 2)] [(var .x, 2)] [] := .turn ⟨[], .refl _, .refl _⟩ (.start [])
  have operand : Walk [(var .x, 2), (var .y, 3)] [(var .y, 3), (var .x, 2)] [] :=
    .turn ⟨[(var .x, 2)], .swap _ _ _, .refl _⟩ last
  have right : Walk [(var .x, 2), (neg (var .y), 2)] [(neg (var .y), 2), (var .y, 3), (var .x, 2)] [] :=
    .turn ⟨[(var .x, 2)], .swap _ _ _, .swap _ _ _⟩ operand
  have walk : Walk [(e, 1)] visited [] := .turn ⟨[], .refl _, .refl _⟩ right
  exact ⟨walk, ((structural_walks e).2.2.2 visited [] walk).2.2 rfl |>.2⟩

end UnitCalc.Formula.Expr
