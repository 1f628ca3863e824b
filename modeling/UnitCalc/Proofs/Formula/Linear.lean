import UnitCalc.Formula.Named
import UnitCalc.Proofs.Double.Operations
import UnitCalc.Proofs.Formula.Evaluation

/-!
# `Proofs.Formula.Linear` — linear formulas compute what they are made for

The text of a linear formula is put together from the digits of two numbers. It is the text of a tree
(`linearText_eq`), so it parses, however many digits it has, and means what the tree means: the value of the
formula at `x` is `x * scale + offset` (`Named.evalAt_linear`).

The text takes the sign of the offset out of the number and leaves a zero offset out altogether. Neither changes
the value: a difference is the sum with the negation, and to add a zero changes no more than the sign of a zero.
-/

namespace UnitCalc.Formula

variable {scale offset : Float}

/-! ## The tree of the text -/

/-- The tree of `x * scale`. -/
def scaled (scale : Float) : Expr :=
  .binary .mul (.var .x) (.num scale)

/-- The tree of a linear formula. Its literals may be negative. -/
def linearTree (scale offset : Float) : Expr :=
  if offset > 0 then .binary .add (scaled scale) (.num offset)
  else if offset < 0 then .binary .sub (scaled scale) (.num offset.abs)
  else scaled scale

/-- A literal is written without parentheses where a negation may stand. -/
theorem Expr.group_num {least : Nat} (h : least ≤ negationPrecedence) (x : Float) (cs : List Char) :
    group least (num x) cs = cs := by
  refine group_of_le (h.trans ?_)
  rw [precedence]
  split <;> decide

theorem render_scaled (scale : Float) : (scaled scale).render = "x * ".toList ++ Double.chars scale := by
  rw [scaled, Expr.render, Expr.group_num (by decide)]
  rfl

/-- An offset is written behind the product as it is. -/
theorem render_offset (op : BinOp) (sum : op.precedence = 1) (scale offset : Float) :
    (Expr.binary op (scaled scale) (.num offset)).render
      = "x * ".toList ++ Double.chars scale ++ ([' ', op.sign, ' '] ++ Double.chars offset) := by
  have left : Expr.leftPrecedence op = 1 := by cases op <;> first | rfl | cases sum
  have right : Expr.rightPrecedence op = 2 := by cases op <;> first | rfl | cases sum
  have product : Expr.group 1 (scaled scale) (scaled scale).render = (scaled scale).render := rfl
  rw [Expr.render, left, right, Expr.group_num (by decide), product, render_scaled, List.append_assoc]
  rfl

/-- **The text of a linear formula is that of its tree.** -/
theorem linearText_eq (scale offset : Float) : linearText scale offset = (linearTree scale offset).text := by
  rw [linearText, linearChars, Expr.text, linearTree]
  refine congrArg String.ofList ?_
  split
  · exact (render_offset .add rfl scale offset).symm
  · split
    · exact (render_offset .sub rfl scale offset.abs).symm
    · rw [render_scaled, List.append_nil]

theorem literals_linearTree (hs : scale.isFinite = true) (ho : offset.isFinite = true) :
    (linearTree scale offset).Literals fun x => x.isFinite = true := by
  rw [linearTree]
  split
  · simp [scaled, hs, ho]
  · split
    · simp [scaled, hs, ho, Double.isFinite_abs]
    · simp [scaled, hs]

theorem callsAccepted_linearTree : (linearTree scale offset).CallsAccepted := by
  rw [linearTree]
  split
  · simp [scaled]
  · split <;> simp [scaled]

theorem Expr.height_normal_num (x : Float) : (Expr.num x).normal.height ≤ 2 := by
  rw [Expr.normal]
  split <;> simp [Expr.height]

/-- A sum, a product, and a negation for the sign of a literal. -/
theorem depth_linearTree (scale offset : Float) : (linearTree scale offset).normal.depth ≤ 4 := by
  have factor := Expr.height_normal_num scale
  rw [Expr.depth_eq_height, linearTree]
  split
  · have summand := Expr.height_normal_num offset
    simp only [scaled, Expr.normal, Expr.height] at *
    omega
  · split
    · have summand := Expr.height_normal_num offset.abs
      simp only [scaled, Expr.normal, Expr.height] at *
      omega
    · simp only [scaled, Expr.normal, Expr.height] at *
      omega

/-! ## The value -/

/-- The value of the tree, but for the sign of a zero. -/
theorem exists_value_linearTree (settings : Settings) (ho : offset.isFinite = true) (scale x : Float) :
    ∃ r, (linearTree scale offset).value settings (.ofX x) = .ok r
      ∧ Double.Alike r (x * scale + offset) := by
  rw [linearTree]
  split
  · exact ⟨x * scale + offset, rfl, .refl _⟩
  · next above =>
    split
    · next below =>
      refine ⟨x * scale - offset.abs, rfl, ?_⟩
      rw [Double.sub_eq_add, Double.neg_abs (Double.isNegative_of_lt_zero below)]
      exact .refl _
    · next below =>
      obtain ⟨s, zero⟩ := Double.exists_zero ho above below
      exact ⟨x * scale, rfl, Double.alike_add_zero _ zero⟩

/-- **A linear formula computes `x * scale + offset`.** For all finite numbers its text parses within the default
limit, and the formula has a value at every `x`, which equals this number, or like it is none. -/
theorem Named.evalAt_linear (id : Uuid) (name symbol : String) (hs : scale.isFinite = true)
    (ho : offset.isFinite = true) (x : Float) :
    (∃ tree, parse (linearText scale offset) = .ok tree)
      ∧ ∃ r, (Named.linear id name symbol scale offset).evalAt x = .ok r
        ∧ Double.Alike r (x * scale + offset) := by
  have same : words (linearText scale offset) = words (linearTree scale offset).text := by
    rw [linearText_eq]
  have literals := literals_linearTree hs ho
  have depth : (linearTree scale offset).normal.depth ≤ defaultMaxDepth :=
    (depth_linearTree scale offset).trans (by decide)
  obtain ⟨r, value, alike⟩ := exists_value_linearTree {} ho scale x
  exact ⟨⟨_, parseUpTo_of_words same literals callsAccepted_linearTree depth⟩,
    r, evaluate_of_words same literals callsAccepted_linearTree depth value, alike⟩

/-- With a negative scale and a negative offset. -/
theorem Named.evalAt_linear_negative :
    (-0.5 : Float).isFinite = true ∧ (-1 : Float).isFinite = true
      ∧ (∃ tree, parse (linearText (-0.5) (-1)) = .ok tree)
      ∧ ∃ r, (Named.linear .nil "Offset" "o" (-0.5) (-1)).evalAt 10 = .ok r
        ∧ Double.Alike r (10 * -0.5 + -1) := by
  have scale : (-0.5 : Float).isFinite = true := by decide
  have offset : (-1 : Float).isFinite = true := by decide
  exact ⟨scale, offset, Named.evalAt_linear .nil "Offset" "o" scale offset 10⟩

end UnitCalc.Formula
