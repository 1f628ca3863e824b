import UnitCalc.Formula.Eval
import UnitCalc.Proofs.Double.Packing
import UnitCalc.Proofs.Formula.Tree

/-!
# `Proofs.Formula.Normal` — trees whose literals have no sign

Formula text has no negative literals: a minus sign before a number is a negation. `Expr.normal` is the
tree in which every negative literal is written that way. It means the same (`value_normal`), and a tree
without negative literals is its own normal form (`normal_eq_self`).
-/

namespace UnitCalc.Formula.Expr

mutual

/-- The tree in which every negative literal, `-0` included, is the negation of its magnitude. -/
def normal : Expr → Expr
  | num x => if Double.isNegative x then neg (num x.abs) else num x
  | var v => var v
  | const c => const c
  | neg operand => neg operand.normal
  | binary op left right => binary op left.normal right.normal
  | call f args => call f (normalAll args)

/-- The normal forms of the trees of a list. -/
def normalAll : List Expr → List Expr
  | [] => []
  | e :: es => e.normal :: normalAll es

end

-- the equations are stated here once, before many proofs at a time ask for them
attribute [simp] normal normalAll

theorem normalAll_eq_map (es : List Expr) : normalAll es = es.map normal := by
  induction es with
  | nil => rfl
  | cons e es ih => rw [normalAll, ih, List.map_cons]

theorem normal_num {x : Float} (h : Double.isNegative x = false) : (num x).normal = num x := by
  rw [normal, if_neg (by simp [h])]

theorem normal_num_of_isNegative {x : Float} (h : Double.isNegative x = true) :
    (num x).normal = neg (num x.abs) := by
  rw [normal, if_pos h]

/-- A tree without negative literals is its own normal form. -/
theorem normal_eq_self {e : Expr} (h : e.Literals fun x => Double.isNegative x = false) :
    e.normal = e := by
  induction e with
  | num x => exact normal_num (literals_num.1 h)
  | var v | const c => rfl
  | neg operand ih => rw [normal, ih (literals_neg.1 h)]
  | binary op l r ihl ihr =>
    obtain ⟨hl, hr⟩ := literals_binary.1 h
    rw [normal, ihl hl, ihr hr]
  | call f args ih =>
    have each : args.map normal = args.map id :=
      List.map_congr_left fun e he => ih e he (literals_call.1 h e he)
    rw [normal, normalAll_eq_map, each, List.map_id]

/-- The literals of a normal form are magnitudes. -/
theorem literals_normal {e : Expr} (h : e.Literals fun x => x.isFinite = true) :
    e.normal.Literals fun x => x.isFinite = true ∧ Double.isNegative x = false := by
  induction e with
  | num x =>
    have finite := literals_num.1 h
    cases sign : Double.isNegative x with
    | true =>
      rw [normal_num_of_isNegative sign, literals_neg, literals_num, Double.isFinite_abs]
      exact ⟨finite, Double.isNegative_abs x⟩
    | false =>
      rw [normal_num sign, literals_num]
      exact ⟨finite, sign⟩
  | var v => exact literals_var
  | const c => exact literals_const
  | neg operand ih => exact literals_neg.2 (ih (literals_neg.1 h))
  | binary op l r ihl ihr =>
    obtain ⟨hl, hr⟩ := literals_binary.1 h
    exact literals_binary.2 ⟨ihl hl, ihr hr⟩
  | call f args ih =>
    rw [normal, normalAll_eq_map, literals_call, List.forall_mem_map]
    exact fun e he => ih e he (literals_call.1 h e he)

theorem callsAccepted_normal {e : Expr} (h : e.CallsAccepted) : e.normal.CallsAccepted := by
  induction e with
  | num x =>
    rw [normal]
    split
    · exact callsAccepted_neg.2 callsAccepted_num
    · exact callsAccepted_num
  | var v => exact callsAccepted_var
  | const c => exact callsAccepted_const
  | neg operand ih => exact callsAccepted_neg.2 (ih (callsAccepted_neg.1 h))
  | binary op l r ihl ihr =>
    obtain ⟨hl, hr⟩ := callsAccepted_binary.1 h
    exact callsAccepted_binary.2 ⟨ihl hl, ihr hr⟩
  | call f args ih =>
    obtain ⟨accepted, each⟩ := callsAccepted_call.1 h
    rw [normal, normalAll_eq_map, callsAccepted_call, List.length_map, List.forall_mem_map]
    exact ⟨accepted, fun e he => ih e he (each e he)⟩

/-- The normal form is at least as high. -/
theorem height_le_normal (e : Expr) : e.height ≤ e.normal.height := by
  induction e with
  | num x => exact height_pos _
  | var v | const c => exact Nat.le.refl
  | neg operand ih => exact Nat.succ_le_succ ih
  | binary op l r ihl ihr =>
    simp only [normal, height]
    omega
  | call f args ih =>
    simp only [normal, height, normalAll_eq_map]
    refine Nat.succ_le_succ (heightAll_le.2 ?_)
    intro e he
    exact Nat.le_trans (ih e he) (heightAll_le.1 Nat.le.refl _ (List.mem_map_of_mem he))

/-! ## Values -/

variable (settings : Settings) (b : Bindings)

theorem values_congr {es fs : List Expr} (h : es.map (value settings b) = fs.map (value settings b)) :
    values settings b es = values settings b fs := by
  induction es generalizing fs with
  | nil =>
    obtain rfl := List.map_eq_nil_iff.1 h.symm
    rfl
  | cons e es ih =>
    cases fs with
    | nil => cases h
    | cons f fs =>
      obtain ⟨head, tail⟩ := List.cons.inj h
      rw [values, values, head, ih tail]

/-- **A tree and its normal form mean the same.** -/
theorem value_normal (e : Expr) : e.normal.value settings b = e.value settings b := by
  induction e with
  | num x =>
    cases sign : Double.isNegative x with
    | true =>
      rw [normal_num_of_isNegative sign]
      exact congrArg Except.ok (Double.neg_abs sign)
    | false => rw [normal_num sign]
  | var v | const c => rfl
  | neg operand ih => rw [normal, value, value, ih]
  | binary op l r ihl ihr => rw [normal, value, value, ihl, ihr]
  | call f args ih =>
    have each : (args.map normal).map (value settings b) = args.map (value settings b) := by
      rw [List.map_map]
      exact List.map_congr_left ih
    rw [normal, value, value, normalAll_eq_map, values_congr settings b each]

/-- Where the normal form is not too deep, neither is the tree, and both evaluate alike. -/
theorem eval_normal {settings : Settings} (e : Expr) (h : e.normal.depth ≤ settings.maxDepth) :
    e.normal.eval settings b = e.eval settings b := by
  have lower := height_le_normal e
  have shallow : ¬ settings.maxDepth < e.depth := by
    rw [depth_eq_height] at h ⊢
    omega
  rw [eval, eval, if_neg (Nat.not_lt.2 h), if_neg shallow, value_normal]

end UnitCalc.Formula.Expr
