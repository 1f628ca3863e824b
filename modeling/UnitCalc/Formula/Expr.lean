import UnitCalc.Formula.Symbol

/-!
# `UnitCalc.Formula.Expr` — expression trees

The tree of a formula. A tree need not come from text: its literals may be any doubles, its calls
may have any number of arguments, and it may be of any depth. What a host has to know about such a
tree before anything recurses on it, its depth and its variables, is therefore found with a work
list and not by recursion.

## Contents
- **Trees.** `Expr`, `Expr.children`, `Expr.size`.
- **Depth.** `Expr.depth`, by `Expr.deepest`; `Expr.height` is the recursive definition.
- **Comparison.** `Expr.same`: equal shape, literals compared as numbers.
- **Variables.** `Expr.variables`, by `Expr.collect`.
-/

namespace UnitCalc.Formula

/-- The tree of a formula. -/
inductive Expr where
  | num (value : Float)
  | var (v : Var)
  | const (c : Const)
  | neg (operand : Expr)
  | binary (op : BinOp) (left right : Expr)
  | call (f : Func) (args : List Expr)
deriving Repr

instance : Inhabited Expr := ⟨.num 0⟩

namespace Expr

/-- The operands of a node, from left to right. -/
def children : Expr → List Expr
  | num _ | var _ | const _ => []
  | neg operand => [operand]
  | binary _ left right => [left, right]
  | call _ args => args

mutual

/-- How many nodes a tree has. -/
def size : Expr → Nat
  | num _ | var _ | const _ => 1
  | neg operand => operand.size + 1
  | binary _ left right => left.size + right.size + 1
  | call _ args => sizeAll args + 1

/-- How many nodes the trees of a list have. -/
def sizeAll : List Expr → Nat
  | [] => 0
  | e :: es => e.size + sizeAll es

end

theorem sizeAll_append (es fs : List Expr) : sizeAll (es ++ fs) = sizeAll es + sizeAll fs := by
  induction es with
  | nil => simp [sizeAll]
  | cons e es ih => simp [sizeAll, ih, Nat.add_assoc]

theorem sizeAll_children (e : Expr) : sizeAll e.children < e.size := by
  cases e <;> simp [children, size, sizeAll]

/-! ## Depth -/

mutual

/-- One more than the height of the highest operand; `1` for a node without operands. -/
def height : Expr → Nat
  | num _ | var _ | const _ => 1
  | neg operand => operand.height + 1
  | binary _ left right => max left.height right.height + 1
  | call _ args => heightAll args + 1

/-- The height of the highest tree of a list. -/
def heightAll : List Expr → Nat
  | [] => 0
  | e :: es => max e.height (heightAll es)

end

/-- The deepest level on a work list of trees with their levels, or `found` if that is deeper.
    A tree is replaced by its operands, one level down. -/
def deepest (work : List (Expr × Nat)) (found : Nat) : Nat :=
  match work with
  | [] => found
  | (e, level) :: rest =>
    deepest (e.children.map (fun child => (child, level + 1)) ++ rest) (max found level)
termination_by sizeAll (work.map Prod.fst)
decreasing_by
  have fewer := sizeAll_children e
  have forget : Prod.fst ∘ (fun child : Expr => (child, level + 1)) = id := rfl
  simp only [List.map_append, List.map_map, forget, List.map_id, sizeAll_append, List.map_cons,
    sizeAll]
  omega

/-- How many levels a tree has; a lone literal has one. -/
def depth (e : Expr) : Nat :=
  deepest [(e, 1)] 0

/-! ## Comparison -/

mutual

/-- Two trees have the same shape and equal literals. Zeros of either sign are equal, and a
    literal that is not a number equals nothing. -/
def same : Expr → Expr → Bool
  | num a, num b => a == b
  | var v, var w => v = w
  | const c, const d => c = d
  | neg a, neg b => a.same b
  | binary op l r, binary op' l' r' => op = op' && l.same l' && r.same r'
  | call f as, call g bs => f = g && sameAll as bs
  | _, _ => false

/-- Two lists hold the same trees in the same order. -/
def sameAll : List Expr → List Expr → Bool
  | [], [] => true
  | a :: as, b :: bs => a.same b && sameAll as bs
  | _, _ => false

end

/-! ## Variables -/

/-- The variables on a work list of trees, in the order in which they are met, and with
    repetitions. -/
def collect (work : List Expr) : List Var :=
  match work with
  | [] => []
  | var v :: rest => v :: collect rest
  | e :: rest => collect (e.children ++ rest)
termination_by sizeAll work
decreasing_by
  · simp [sizeAll, size]
  · have fewer := sizeAll_children e
    simp only [sizeAll_append, sizeAll]
    omega

end Expr

/-- The variables that occur in a tree, in their own order and without repetitions. -/
def Expr.variables (e : Expr) : List Var :=
  Var.all.filter fun v => v ∈ Expr.collect [e]

end UnitCalc.Formula
