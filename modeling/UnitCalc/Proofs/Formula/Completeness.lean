import UnitCalc.Proofs.Formula.Grammar
import UnitCalc.Proofs.Formula.Steps

/-!
# `Proofs.Formula.Completeness` — what is derived is read

Every admissible part is read, by induction on its derivation (`covered`): whatever tokens follow, as
long as they do not continue the part (`Part.EndsAt`), and if there is budget for it, eight nested rules
for a token and those down to the first one (`Part.rank`).

Sums and products are derived at their left end, and read from there on. So for them the induction does
not say that they are read, but that what can be read *after* them, with them as the left operand, can be
read from their beginning (`Chained`).
-/

namespace UnitCalc.Formula

variable {limit : Nat}

/-! ## Parts and the tokens around them -/

/-- The first token of a part is none that ends one, and a minus sign only where negations may stand. -/
theorem Derives.exists_head {p : Part} {n : Nat} {ps : List Placed} {e : Expr} (h : Derives p n ps e) :
    ∃ t qs, ps = t :: qs ∧ t.1 ≠ .stop ∧ t.1 ≠ .closeParen
      ∧ (p = .power ∨ p = .primary → t.1 ≠ .minus) := by
  induction h with
  | expression _ ih | additive _ ih | multiplicative _ ih | unary _ ih =>
    obtain ⟨t, qs, rfl, h⟩ := ih
    exact ⟨t, qs, rfl, h.1, h.2.1, by simp⟩
  | power _ ih =>
    obtain ⟨t, qs, rfl, h⟩ := ih
    exact ⟨t, qs, rfl, h.1, h.2.1, fun _ => h.2.2 (.inr rfl)⟩
  | sum _ _ _ ih _ | product _ _ _ ih _ =>
    obtain ⟨t, qs, rfl, h⟩ := ih
    exact ⟨t, _, List.cons_append, h.1, h.2.1, by simp⟩
  | raised _ _ ih _ =>
    obtain ⟨t, qs, rfl, h⟩ := ih
    exact ⟨t, _, List.cons_append, h.1, h.2.1, fun _ => h.2.2 (.inr rfl)⟩
  | negation | num | var | const | group | call => exact ⟨_, _, rfl, by simp⟩

namespace Part

/-- The rule that reads a part. -/
def rule : Part → Rule
  | expression => .expression
  | additive => .additive
  | multiplicative => .multiplicative
  | unary => .unary
  | power => .power
  | primary => .primary

/-- How many rules are used inside one another before a token is passed, at most. -/
def rank : Part → Nat
  | expression => 8
  | additive => 7
  | multiplicative => 6
  | unary => 5
  | power => 4
  | primary => 3

/-- The token does not continue a part that ends before it. -/
def EndsAt : Part → Token → Prop
  | expression, t | additive, t => t ≠ .caret ∧ t.multiplicative? = none ∧ t.additive? = none
  | multiplicative, t => t ≠ .caret ∧ t.multiplicative? = none
  | unary, t | power, t => t ≠ .caret
  | primary, _ => True

/-- What stands behind a group, behind an argument or behind the formula ends an expression. -/
theorem expression_endsAt {t : Token} (h : t = .closeParen ∨ t = .comma ∨ t = .stop) :
    expression.EndsAt t := by
  rcases h with rfl | rfl | rfl <;> simp [EndsAt, Token.multiplicative?, Token.additive?]

end Part

/-! ## Loops -/

namespace Parser

variable {n : Nat} {us vs : List Token} {operator? : Token → Option BinOp} {operand : Parser Expr}

/-- A chain stops where no operator stands. -/
theorem reads_chain_stop {e : Expr} (stop : operator? (us.headD .stop) = none) (turns : Nat) :
    Reads (chain limit operator? operand turns e) n us e us := by
  cases turns with
  | zero => exact reads_done
  | succ turns =>
    refine reads_current ?_
    rw [stop]
    exact reads_done

/-- A chain passes an operator and its right operand, and goes on with the grouped tree. -/
theorem reads_chain_next {t : Token} {op : BinOp} {qs : List Token} {l r c : Expr}
    (found : operator? t = some op) (right : Reads operand n (qs ++ us) r us)
    (depth : (Expr.binary op l r).depth ≤ limit)
    (next : ∀ turns, us.length ≤ turns →
      Reads (chain limit operator? operand turns (.binary op l r)) n us c vs)
    (turns : Nat) (enough : (t :: qs ++ us).length ≤ turns) :
    Reads (chain limit operator? operand turns l) n (t :: qs ++ us) c vs := by
  cases turns with
  | zero => simp at enough
  | succ turns =>
    refine reads_current ?_
    rw [List.cons_append, List.headD_cons, found]
    refine reads_advance (reads_bind right (reads_bind (reads_node depth) (next turns ?_)))
    simp at enough
    omega

/-- The arguments after the first one are read up to the closing parenthesis. -/
theorem reads_moreArguments {argument : Parser Expr} {args : List (List Placed × Expr)}
    (next : ∀ a ∈ args, ∀ us, Part.expression.EndsAt (us.headD .stop) →
      Reads argument n (a.1.map Prod.fst ++ us) a.2 us)
    (turns : Nat) (enough : args.length ≤ turns) :
    Reads (moreArguments argument turns) n
      (((args.map Prod.fst).flatMap ((.comma, n) :: ·)).map Prod.fst ++ .closeParen :: us)
      (args.map Prod.snd) (.closeParen :: us) := by
  induction args generalizing turns with
  | nil =>
    cases turns with
    | zero => exact reads_done
    | succ turns => exact reads_current reads_done
  | cons a args ih =>
    cases turns with
    | zero => simp at enough
    | succ turns =>
      rw [List.map_cons, List.flatMap_cons, List.map_append, List.map_cons, List.append_assoc,
        List.cons_append]
      refine reads_current (reads_advance (reads_bind (next a List.mem_cons_self _ ?_) ?_))
      · cases args <;> exact Part.expression_endsAt (by simp)
      · refine reads_bind (ih (fun b hb => next b (List.mem_cons_of_mem a hb)) turns ?_) reads_done
        simpa using enough

/-- The arguments of a call are read up to the closing parenthesis. -/
theorem reads_arguments {argument : Parser Expr} {args : List (List Placed × Expr)}
    (derives : ∀ a ∈ args, Derives .expression n a.1 a.2)
    (next : ∀ a ∈ args, ∀ us, Part.expression.EndsAt (us.headD .stop) →
      Reads argument n (a.1.map Prod.fst ++ us) a.2 us) :
    Reads (arguments argument) n
      ((separated n (args.map Prod.fst)).map Prod.fst ++ .closeParen :: us)
      (args.map Prod.snd) (.closeParen :: us) := by
  cases args with
  | nil => exact reads_current reads_done
  | cons a args =>
    -- an argument does not begin with the parenthesis that would end an empty list
    obtain ⟨t, qs, tokens, -, no_close, -⟩ := (derives a List.mem_cons_self).exists_head
    rw [List.map_cons, separated_cons, List.map_append, List.append_assoc]
    refine reads_current ?_
    rw [if_neg (by rw [tokens]; exact no_close)]
    refine reads_bind (next a List.mem_cons_self _ ?_) (reads_remaining (reads_bind
      (reads_moreArguments (fun b hb => next b (List.mem_cons_of_mem a hb)) _ ?_) reads_done))
    · cases args <;> exact Part.expression_endsAt (by simp)
    · have commas := length_le_commas n (args.map Prod.fst)
      rw [List.length_map] at commas
      rw [List.length_append, List.length_map]
      omega

/-- An operand and the operators and operands behind it. -/
def listed (limit : Nat) (operator? : Token → Option BinOp) (operand : Parser Expr) : Parser Expr := do
  let left ← operand
  chain limit operator? operand (← remaining) left

end Parser

/-! ## Every admissible part is read -/

namespace Rule

open Formula.Parser

variable {n : Nat} {ps : List Placed} {e : Expr}

/-- With enough rules to use, the part is read whatever follows it that does not continue it. -/
def Readable (limit : Nat) (p : Part) (n : Nat) (ps : List Placed) (e : Expr) : Prop :=
  ∀ budget us, 8 * ps.length + p.rank ≤ budget → p.EndsAt (us.headD .stop) →
    Reads (p.rule.within limit budget) n (ps.map Prod.fst ++ us) e us

/-- A part is read by the body of its rule. -/
theorem readable_of_step {p : Part} (h : ∀ budget us, 8 * ps.length + p.rank ≤ budget + 1 →
      p.EndsAt (us.headD .stop) →
      Reads (step limit (within limit budget) p.rule) n (ps.map Prod.fst ++ us) e us) :
    Readable limit p n ps e := by
  intro budget us enough stop
  cases budget with
  -- no part has rank zero
  | zero => cases p <;> cases enough
  | succ budget => exact h budget us enough stop

/-- The beginning of a sum or product can be read: what can be read from there on, with `e` as the
    left operand, can be read from the beginning. -/
def Chained (limit : Nat) (q : Part) (operator? : Token → Option BinOp) (n : Nat) (ps : List Placed)
    (e : Expr) : Prop :=
  ∀ budget us c vs, 8 * ps.length + q.rank ≤ budget → q.EndsAt (us.headD .stop) →
    (∀ turns, us.length ≤ turns →
      Reads (chain limit operator? (q.rule.within limit budget) turns e) n us c vs) →
    Reads (listed limit operator? (q.rule.within limit budget)) n (ps.map Prod.fst ++ us) c vs

/-- What the induction on derivations shows of a part: sums and products are left open at their
    right end, where they may grow. -/
def Covered (limit : Nat) : Part → Nat → List Placed → Expr → Prop
  | .additive, n, ps, e => Chained limit .multiplicative Token.additive? n ps e
  | .multiplicative, n, ps, e => Chained limit .unary Token.multiplicative? n ps e
  | p, n, ps, e => Readable limit p n ps e

theorem Chained.single {q : Part} {operator? : Token → Option BinOp} (h : Readable limit q n ps e) :
    Chained limit q operator? n ps e := by
  intro budget us c vs enough stop next
  exact reads_bind (h budget us enough stop) (reads_remaining (next _ Nat.le.refl))

theorem Chained.grow {q : Part} {operator? : Token → Option BinOp} {t : Token} {op : BinOp}
    {qs : List Placed} {l r : Expr} (found : operator? t = some op) (stop : q.EndsAt t)
    (hl : Chained limit q operator? n ps l) (hr : Readable limit q n qs r)
    (depth : (Expr.binary op l r).depth ≤ limit) :
    Chained limit q operator? n (ps ++ (t, n) :: qs) (.binary op l r) := by
  intro budget us c vs enough stop' next
  simp only [List.length_append, List.length_cons] at enough
  -- from the end: the right operand, then the turn of the loop, then what is read before it
  have right := hr budget us (by omega) stop'
  have left := hl budget (t :: qs.map Prod.fst ++ us) c vs (by omega) stop
    (reads_chain_next found right depth next)
  simpa using left

/-- A sum or product that is complete can be read. -/
theorem Covered.readable {p : Part} (h : Covered limit p n ps e) : Readable limit p n ps e := by
  cases p with
  | expression | unary | power | primary => exact h
  | additive =>
    refine readable_of_step ?_
    intro budget us enough stop
    exact h budget us e us (by simp [Part.rank] at enough ⊢; omega) ⟨stop.1, stop.2.1⟩
      fun turns _ => reads_chain_stop stop.2.2 turns
  | multiplicative =>
    refine readable_of_step ?_
    intro budget us enough stop
    exact h budget us e us (by simp [Part.rank] at enough ⊢; omega) stop.1
      fun turns _ => reads_chain_stop stop.2 turns

/-! One lemma for each rule: the part is covered when the parts inside it are. -/

theorem readable_expression (within : n + 1 ≤ limit) (h : Readable limit .additive (n + 1) ps e) :
    Readable limit .expression n ps e := by
  refine readable_of_step ?_
  intro budget us enough stop
  exact reads_nested within (h budget us (by simp [Part.rank] at enough ⊢; omega) stop)

theorem readable_unary (derives : Derives .power n ps e) (h : Readable limit .power n ps e) :
    Readable limit .unary n ps e := by
  refine readable_of_step ?_
  intro budget us enough stop
  obtain ⟨t, qs, rfl, -, -, no_minus⟩ := derives.exists_head
  refine reads_current ?_
  rw [if_neg (by simpa using no_minus)]
  exact h budget us (by simp [Part.rank] at enough ⊢; omega) stop

theorem readable_negation (within : n + 1 ≤ limit) (depth : (Expr.neg e).depth ≤ limit)
    (h : Readable limit .unary (n + 1) ps e) : Readable limit .unary n ((.minus, n) :: ps) (.neg e) := by
  refine readable_of_step ?_
  intro budget us enough stop
  have operand := h budget us (by simp [Part.rank] at enough ⊢; omega) stop
  exact reads_current (reads_advance (reads_bind (reads_nested within operand) (reads_node depth)))

theorem readable_power (h : Readable limit .primary n ps e) : Readable limit .power n ps e := by
  refine readable_of_step ?_
  intro budget us enough stop
  have base := h budget us (by simp [Part.rank] at enough ⊢; omega) trivial
  refine reads_bind base (reads_current ?_)
  rw [if_neg stop]
  exact reads_done

theorem readable_raised {qs : List Placed} {x : Expr} (within : n + 1 ≤ limit)
    (depth : (Expr.binary .pow e x).depth ≤ limit) (hb : Readable limit .primary n ps e)
    (hx : Readable limit .unary (n + 1) qs x) :
    Readable limit .power n (ps ++ (.caret, n) :: qs) (.binary .pow e x) := by
  refine readable_of_step ?_
  intro budget us enough stop
  simp only [List.length_append, List.length_cons, Part.rank] at enough
  have base := hb budget (.caret :: (qs.map Prod.fst ++ us)) (by simp only [Part.rank]; omega) trivial
  have exponent := hx budget us (by simp only [Part.rank]; omega) stop
  rw [List.map_append, List.append_assoc]
  exact reads_bind base (reads_current (reads_advance
    (reads_bind (reads_nested within exponent) (reads_node depth))))

theorem readable_num {x : Float} (finite : x.isFinite = true) :
    Readable limit .primary n [(.number x, n)] (.num x) := by
  refine readable_of_step ?_
  intro budget us enough _
  refine reads_current ?_
  show Reads (if x.isFinite then _ else _) _ _ _ _
  rw [if_pos finite]
  exact reads_advance reads_done

theorem readable_var (v : Var) : Readable limit .primary n [(.name v.name, n)] (.var v) := by
  refine readable_of_step fun budget us enough _ => reads_current ?_
  obtain ⟨budget, rfl⟩ : ∃ b, budget = b + 1 := ⟨budget - 1, by simp at enough; omega⟩
  show Reads (step limit (within limit budget) (name v.name)) _ _ _ _
  simp only [step, v.ofName?_name]
  exact reads_advance reads_done

theorem readable_const (c : Const) : Readable limit .primary n [(.name c.key, n)] (.const c) := by
  refine readable_of_step fun budget us enough _ => reads_current ?_
  obtain ⟨budget, rfl⟩ : ∃ b, budget = b + 1 := ⟨budget - 1, by simp at enough; omega⟩
  show Reads (step limit (within limit budget) (name c.key)) _ _ _ _
  simp only [step, c.ofName?_key]
  exact reads_advance reads_done

theorem readable_group (h : Readable limit .expression n ps e) :
    Readable limit .primary n ((.openParen, n) :: ps ++ [(.closeParen, n)]) e := by
  refine readable_of_step fun budget us enough _ => reads_current ?_
  simp only [List.length_cons, List.length_append, List.length_nil, Part.rank] at enough
  have inside := h budget (.closeParen :: us) (by simp only [Part.rank]; omega)
    (Part.expression_endsAt (.inl rfl))
  rw [List.cons_append, List.map_cons, List.map_append, List.cons_append, List.append_assoc]
  exact reads_advance (reads_bind inside (reads_bind reads_closeParen reads_done))

theorem readable_call {f : Func} {args : List (List Placed × Expr)}
    (accepted : f.arity.accepts args.length = true)
    (depth : (Expr.call f (args.map Prod.snd)).depth ≤ limit)
    (derives : ∀ a ∈ args, Derives .expression n a.1 a.2)
    (h : ∀ a ∈ args, Readable limit .expression n a.1 a.2) :
    Readable limit .primary n
      ((.name f.name, n) :: (.openParen, n) :: separated n (args.map Prod.fst) ++ [(.closeParen, n)])
      (.call f (args.map Prod.snd)) := by
  refine readable_of_step ?_
  intro budget us enough _
  simp only [List.length_cons, List.length_append, List.length_nil, Part.rank] at enough
  obtain ⟨budget, rfl⟩ : ∃ b, budget = b + 2 := ⟨budget - 2, by omega⟩
  have shorter : ∀ a ∈ args, a.1.length ≤ (separated n (args.map Prod.fst)).length := by
    intro a ha
    obtain ⟨before, behind, split⟩ := separated_piece (n := n) (List.mem_map_of_mem ha)
    rw [split, List.length_append, List.length_append]
    omega
  have inside : Reads (arguments (within limit budget expression)) n
      ((separated n (args.map Prod.fst)).map Prod.fst ++ .closeParen :: us) (args.map Prod.snd)
      (.closeParen :: us) :=
    reads_arguments derives fun a ha vs stop =>
      h a ha budget vs (by have := shorter a ha; simp only [Part.rank]; omega) stop
  have tokens : (((.name f.name, n) :: (.openParen, n) :: separated n (args.map Prod.fst)
      ++ [(.closeParen, n)] : List Placed).map Prod.fst ++ us)
      = .name f.name :: .openParen :: ((separated n (args.map Prod.fst)).map Prod.fst
        ++ .closeParen :: us) := by
    simp
  rw [tokens]
  refine reads_current ?_
  show Reads (step limit (within limit (budget + 1)) (name f.name)) _ _ _ _
  simp only [step, f.ofName?_name]
  refine reads_position fun start => reads_advance (reads_current ?_)
  show Reads (step limit (within limit budget) (call f start)) _ _ _ _
  refine reads_advance (reads_bind inside (reads_bind reads_closeParen ?_))
  rw [List.length_map, if_pos accepted]
  exact reads_node depth

/-- **Every admissible part is covered**, by induction on its derivation. -/
theorem covered {p : Part} (derives : Derives p n ps e) (adm : Admissible limit ps e) :
    Covered limit p n ps e := by
  induction derives with
  | expression derives ih =>
    obtain ⟨t, ht, level⟩ := derives.exists_level
    exact readable_expression (Nat.le_trans level (adm.levels t ht)) (ih adm).readable
  | additive _ ih => exact .single (ih adm).readable
  | sum _ found _ ihl ihr =>
    refine .grow found ?_ (ihl adm.of_left) (ihr adm.of_right).readable adm.depth
    rcases additive?_eq_some.1 found with ⟨rfl, -⟩ | ⟨rfl, -⟩ <;>
      simp [Part.EndsAt, Token.multiplicative?]
  | multiplicative _ ih => exact .single (ih adm).readable
  | product _ found _ ihl ihr =>
    refine .grow found ?_ (ihl adm.of_left) (ihr adm.of_right).readable adm.depth
    rcases multiplicative?_eq_some.1 found with ⟨rfl, -⟩ | ⟨rfl, -⟩ <;> simp [Part.EndsAt]
  | unary derives ih => exact readable_unary derives (ih adm).readable
  | negation derives ih =>
    -- the operand has a token at its level, so that level has been allowed
    obtain ⟨t, ht, level⟩ := derives.exists_level
    exact readable_negation (Nat.le_trans level (adm.of_neg.levels t ht)) adm.depth
      (ih adm.of_neg).readable
  | power _ ih => exact readable_power (ih adm).readable
  | raised _ derives ihb ihx =>
    obtain ⟨t, ht, level⟩ := derives.exists_level
    exact readable_raised (Nat.le_trans level (adm.of_right.levels t ht)) adm.depth
      (ihb adm.of_left).readable (ihx adm.of_right).readable
  | num x => exact readable_num (adm.numbers x _ List.mem_cons_self)
  | var v => exact readable_var v
  | const c => exact readable_const c
  | group _ ih => exact readable_group (ih adm.of_group).readable
  | call f derives ih =>
    have accepted := (Expr.callsAccepted_call.1 adm.calls).1
    rw [List.length_map] at accepted
    exact readable_call accepted adm.depth derives fun a ha => (ih a ha (adm.of_call ha)).readable

end Rule

end UnitCalc.Formula
