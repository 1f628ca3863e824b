import UnitCalc.Proofs.Formula.Printing

/-!
# `Proofs.Formula.Parentheses` — a tree is written with the fewest parentheses

No text of a formula has fewer parentheses than the text in which its tree is written, so none of the
parentheses in the latter can be dropped (`parseUpTo_text_fewest`).

Parentheses in a text are words of their own, so they are counted among its words as among its characters
(`count_wordsOf`). The bound is shown by induction on the derivation of a text. A part of the grammar is a position
that asks for a binding strength, and what is derived there has at least the parentheses with which the
tree is written as an operand in such a position (`Derives.count_render_le`).
-/

namespace UnitCalc.Formula

open Text (digitSpan exponentSpan signSpan)

/-! ## Parentheses among the words of a text -/

theorem paren_not_mem_digitSpan (cs : List Char) : '(' ∉ (digitSpan cs).1 := by
  intro h
  exact absurd (List.mem_takeWhile_imp h) (by decide)

theorem paren_not_mem_mantissaSpan (cs : List Char) : '(' ∉ (mantissaSpan cs).1 := by
  have whole := paren_not_mem_digitSpan cs
  unfold mantissaSpan
  split
  · next ds rest eq =>
    rw [eq] at whole
    simp [whole, paren_not_mem_digitSpan]
  · next ds rest _ eq =>
    rw [eq] at whole
    exact whole

theorem paren_not_mem_exponentSpan (cs : List Char) : '(' ∉ (exponentSpan cs).1 := by
  cases cs with
  | nil => exact List.not_mem_nil
  | cons c cs =>
    rw [exponentSpan]
    split
    · next exponent =>
      have mark : '(' ≠ c := by
        rintro rfl
        cases exponent
      have sign : '(' ∉ (signSpan cs).1 := by
        unfold signSpan
        split <;> simp
      simp [mark, sign, paren_not_mem_digitSpan]
    · exact List.not_mem_nil

/-- Neither numbers nor names have parentheses in them. -/
theorem paren_not_mem_lexeme {c : Char} (other : c ≠ '(') (cs : List Char) : '(' ∉ (lexeme c cs).1 := by
  rw [lexeme]
  split
  · simp [numberSpan, paren_not_mem_mantissaSpan, paren_not_mem_exponentSpan]
  · split
    · rw [List.mem_cons, not_or]
      refine ⟨other.symm, fun h => ?_⟩
      exact absurd (List.mem_takeWhile_imp h) (by decide)
    · simpa using other.symm

theorem ofLexeme_ne_openParen {c : Char} (other : c ≠ '(') (word : List Char) :
    Token.ofLexeme c word ≠ .openParen := by
  unfold Token.ofLexeme
  split <;> try simp
  · exact absurd rfl other
  · split
    · split <;> simp
    · split <;> simp

/-- **The parentheses of a text are words of their own.** -/
theorem count_wordsOf (cs : List Char) : (wordsOf cs).count .openParen = cs.count '(' := by
  rw [← map_token_scan 0]
  generalize 0 = start
  induction start, cs using scan.induct with
  | case1 start =>
    rw [scan_nil]
    rfl
  | case2 start c cs blank ih =>
    have other : c ≠ '(' := by
      rintro rfl
      exact absurd blank (by decide)
    rw [scan_cons, if_pos blank, ih, List.count_cons_of_ne other]
  | case3 start c cs blank ih =>
    rw [scan_cons, if_neg blank, List.map_cons]
    by_cases paren : c = '('
    · subst paren
      have single : (lexeme '(' cs).2 = cs := rfl
      rw [single] at ih ⊢
      rw [List.count_cons_self, ← ih]
      exact List.count_cons_self
    · rw [List.count_cons_of_ne (ofLexeme_ne_openParen paren _), ih, ← lexeme_append c cs, List.count_append,
        List.count_eq_zero.2 (paren_not_mem_lexeme paren cs), Nat.zero_add]

/-- The words of a written tree have the parentheses that its characters have. -/
theorem count_words_text (e : Expr) : (words e.text).count .openParen = e.render.count '(' := by
  rw [words_eq, Expr.text, String.toList_ofList, count_wordsOf]

/-! ## Parentheses of a written tree -/

/-- A number has only digits and a point. -/
theorem paren_not_mem_plain {cs : List Char} {v : ℚ} (h : Decimal.Plain cs v) : '(' ∉ cs := by
  intro paren
  cases h with
  | whole _ digits => exact absurd (digits _ paren) (by decide)
  | point _ digits places =>
    rcases List.mem_append.1 paren with h | h
    · exact absurd (digits _ h) (by decide)
    · rcases List.mem_cons.1 h with h | h
      · exact absurd h (by decide)
      · exact absurd (places _ h) (by decide)

namespace Expr

variable {e : Expr} {cs : List Char} {least least' : Nat}

theorem count_group_of_le {n : Nat} (tight : least ≤ e.precedence) (bound : cs.count '(' ≤ n) :
    (e.group least cs).count '(' ≤ n := by
  rwa [group_of_le tight]

/-- A position that asks for more has no fewer parentheses. -/
theorem count_group_mono (le : least ≤ least') :
    (e.group least cs).count '(' ≤ (e.group least' cs).count '(' := by
  rw [group, group]
  split
  · next low => rw [if_pos (Nat.lt_of_lt_of_le low le)]
  · split
    · simp
    · exact Nat.le.refl

/-- An operand stands in at most one pair of parentheses. -/
theorem count_group_le : (e.group least cs).count '(' ≤ cs.count '(' + 1 := by
  rw [group]
  split
  · simp
  · exact Nat.le_succ _

theorem count_render_binary (op : BinOp) (l r : Expr) :
    (binary op l r).render.count '(' = (l.group (leftPrecedence op) l.render).count '('
      + (r.group (rightPrecedence op) r.render).count '(' := by
  have sign : [' ', op.sign, ' '].count '(' = 0 := by cases op <;> decide
  rw [render, List.count_append, List.count_append, sign, Nat.add_zero]

theorem count_render_num {x : Float} (finite : x.isFinite = true) (sign : Double.isNegative x = false) :
    (num x).render.count '(' = 0 := by
  obtain ⟨v, plain, -⟩ := Double.chars_read_back finite sign
  rw [render, List.count_eq_zero.2 (paren_not_mem_plain plain)]

theorem count_renderAll (es : List Expr) :
    (renderAll es).count '(' = (es.map fun e => e.render.count '(').sum := by
  induction es with
  | nil => rfl
  | cons e es ih =>
    cases es with
    | nil => simp [renderAll]
    | cons f es =>
      rw [renderAll, List.count_append, List.count_append, ih]
      · rfl
      · simp

theorem count_render_call (f : Func) (args : List Expr) :
    (call f args).render.count '(' = (args.map fun e => e.render.count '(').sum + 1 := by
  have name : f.name.toList.count '(' = 0 := by cases f <;> decide
  rw [render, ← count_renderAll]
  simp [name]

end Expr

/-! ## Parentheses of a derivation -/

/-- The binding strength that the position of a part asks for. -/
def Part.strength : Part → Nat
  | .expression | .additive => 1
  | .multiplicative => 2
  | .unary => 3
  | .power => 4
  | .primary => 5

/-- An expression stands where any operand stands without parentheses. -/
theorem Expr.group_expression (e : Expr) (cs : List Char) : e.group Part.expression.strength cs = cs :=
  group_of_le (precedence_pos e)

/-- How many parentheses the tokens open. -/
def opened (ps : List Placed) : Nat :=
  (ps.map Prod.fst).count .openParen

theorem opened_append (ps qs : List Placed) : opened (ps ++ qs) = opened ps + opened qs := by
  rw [opened, List.map_append, List.count_append]
  rfl

theorem opened_cons_of_ne {t : Token} (other : t ≠ .openParen) (n : Nat) (ps : List Placed) :
    opened ((t, n) :: ps) = opened ps :=
  List.count_cons_of_ne other

theorem opened_cons_openParen (n : Nat) (ps : List Placed) :
    opened ((.openParen, n) :: ps) = opened ps + 1 :=
  List.count_cons_self

/-- No parentheses are added between arguments. -/
theorem opened_separated (n : Nat) (args : List (List Placed)) :
    opened (separated n args) = (args.map opened).sum := by
  cases args with
  | nil => rfl
  | cons a args =>
    rw [separated_cons, opened_append, List.map_cons, List.sum_cons]
    refine congrArg (opened a + ·) ?_
    induction args with
    | nil => rfl
    | cons b args ih =>
      rw [List.flatMap_cons, opened_append, opened_cons_of_ne (by simp), ih, List.map_cons, List.sum_cons]

/-- An operator has at least the parentheses of its operands. -/
theorem Expr.count_binary_le {least n : Nat} {ps qs : List Placed} {t : Token} {op : BinOp} {l r : Expr}
    (tight : least ≤ op.precedence) (other : t ≠ .openParen)
    (left : (l.group (leftPrecedence op) l.render).count '(' ≤ opened ps)
    (right : (r.group (rightPrecedence op) r.render).count '(' ≤ opened qs) :
    ((binary op l r).group least (binary op l r).render).count '(' ≤ opened (ps ++ (t, n) :: qs) := by
  refine count_group_of_le tight ?_
  rw [count_render_binary, opened_append, opened_cons_of_ne other]
  exact Nat.add_le_add left right

/-- **A derivation has at least the parentheses with which its tree is written** as an operand in the position of
the part. -/
theorem Derives.count_render_le {p : Part} {n : Nat} {ps : List Placed} {e : Expr} (h : Derives p n ps e)
    (literals : e.Literals fun x => x.isFinite = true ∧ Double.isNegative x = false) :
    (e.group p.strength e.render).count '(' ≤ opened ps := by
  induction h with
  | expression _ ih => exact ih literals
  | additive _ ih | multiplicative _ ih | unary _ ih | power _ ih =>
    exact (Expr.count_group_mono (by decide)).trans (ih literals)
  | sum _ sign _ ihl ihr =>
    obtain ⟨left, right⟩ := Expr.literals_binary.1 literals
    rcases additive?_eq_some.1 sign with ⟨rfl, rfl⟩ | ⟨rfl, rfl⟩ <;>
      exact Expr.count_binary_le (by decide) (by simp) (ihl left) (ihr right)
  | product _ sign _ ihl ihr =>
    obtain ⟨left, right⟩ := Expr.literals_binary.1 literals
    rcases multiplicative?_eq_some.1 sign with ⟨rfl, rfl⟩ | ⟨rfl, rfl⟩ <;>
      exact Expr.count_binary_le (by decide) (by simp) (ihl left) (ihr right)
  | raised _ _ ihb ihx =>
    obtain ⟨base, exponent⟩ := Expr.literals_binary.1 literals
    exact Expr.count_binary_le (by decide) (by simp) (ihb base) (ihx exponent)
  | @negation n ps e _ ih =>
    refine Expr.count_group_of_le Nat.le.refl ?_
    rw [Expr.render, List.count_cons_of_ne (by decide), opened_cons_of_ne (by simp)]
    exact ih (Expr.literals_neg.1 literals)
  | num x =>
    obtain ⟨finite, sign⟩ := Expr.literals_num.1 literals
    have atom : Part.primary.strength ≤ (Expr.num x).precedence := by
      rw [Expr.precedence, sign]
      exact Nat.le.refl
    exact Expr.count_group_of_le atom ((Expr.count_render_num finite sign).trans_le (Nat.zero_le _))
  | var v =>
    have name : (Expr.var v).render.count '(' = 0 := by cases v <;> decide
    exact Expr.count_group_of_le Nat.le.refl (name.trans_le (Nat.zero_le _))
  | const c =>
    have name : (Expr.const c).render.count '(' = 0 := by cases c <;> decide
    exact Expr.count_group_of_le Nat.le.refl (name.trans_le (Nat.zero_le _))
  | @group n ps e _ ih =>
    have inside := ih literals
    rw [Expr.group_expression] at inside
    rw [List.cons_append, opened_cons_openParen, opened_append]
    exact Expr.count_group_le.trans (Nat.succ_le_succ (inside.trans (Nat.le_add_right _ _)))
  | @call n f args _ ih =>
    have each : ∀ a ∈ args, a.2.render.count '(' ≤ opened a.1 := by
      intro a ha
      have argument := ih a ha (Expr.literals_call.1 literals a.2 (List.mem_map_of_mem ha))
      rwa [Expr.group_expression] at argument
    refine Expr.count_group_of_le Nat.le.refl ?_
    rw [Expr.count_render_call, List.cons_append, List.cons_append,
      opened_cons_of_ne (by simp), opened_cons_openParen, opened_append, opened_separated, List.map_map,
      List.map_map]
    exact Nat.succ_le_succ ((List.sum_le_sum each).trans (Nat.le_add_right _ _))

/-! ## Texts -/

/-- The second list is the first one without a pair of elements. -/
def Dropped {α : Type} (opening closing : α) (xs ys : List α) : Prop :=
  ∃ before inside behind, xs = before ++ opening :: (inside ++ closing :: behind) ∧
    ys = before ++ (inside ++ behind)

theorem Dropped.count_lt {α : Type} [DecidableEq α] {opening closing : α} {xs ys : List α}
    (h : Dropped opening closing xs ys) : ys.count opening < xs.count opening := by
  obtain ⟨before, inside, behind, rfl, rfl⟩ := h
  simp only [List.count_append, List.count_cons_self]
  have more : behind.count opening ≤ (closing :: behind).count opening :=
    (List.sublist_cons_self closing behind).count_le opening
  omega

/-- The words of a text that parses have at least the parentheses with which its tree is written. -/
theorem count_words_text_le {limit : Nat} {s : String} {e : Expr} (h : parseUpTo limit s = .ok e) :
    (words e.text).count .openParen ≤ (words s).count .openParen := by
  obtain ⟨ps, tokens, derives, -⟩ := accepted_of_parseUpTo h
  have bound := derives.count_render_le (literals_of_parseUpTo h)
  rwa [Expr.group_expression, opened, tokens, ← count_words_text] at bound

/-- **A tree is written with the fewest parentheses.** The text of a tree that was parsed parses to the same
tree, within the same limit, and no text of the tree has fewer parentheses, whatever its limit. So no pair of
parentheses in it can be dropped, neither from its characters nor from its words, without changing the tree or
leaving no formula. -/
theorem parseUpTo_text_fewest {limit : Nat} {s : String} {e : Expr} (h : parseUpTo limit s = .ok e) :
    (words e.text).count .openParen ≤ (words s).count .openParen
      ∧ parseUpTo limit e.text = .ok e
      ∧ ∀ s', Dropped '(' ')' e.text.toList s'.toList
          ∨ Dropped .openParen .closeParen (words e.text) (words s') →
        ∀ limit', parseUpTo limit' s' ≠ .ok e := by
  have literals := literals_of_parseUpTo h
  have normal : e.normal = e := Expr.normal_eq_self fun x hx => (literals x hx).2
  obtain ⟨ps, -, -, adm⟩ := accepted_of_parseUpTo h
  have depth : e.normal.depth ≤ limit := normal.symm ▸ adm.depth
  refine ⟨count_words_text_le h, ?_, ?_⟩
  · have parsed := parseUpTo_of_words rfl (fun x hx => (literals x hx).1) adm.calls depth
    rwa [normal] at parsed
  · intro s' dropped limit' parsed
    have least := count_words_text_le parsed
    have fewer : (words s').count .openParen < (words e.text).count .openParen := by
      rcases dropped with characters | tokens
      · rw [words_eq, words_eq, count_wordsOf, count_wordsOf]
        exact characters.count_lt
      · exact tokens.count_lt
    omega

/-- The tree of `x * (2 + y)`. -/
def multiplied : Expr :=
  .binary .mul (.var .x) (.binary .add (.num 2) (.var .y))

/-- Of the parentheses in `(x)*(2+y)` one pair is written, and without it the formula is another one. -/
theorem parseUpTo_text_fewest_multiplied :
    parseUpTo 3 "(x)*(2+y)" = .ok multiplied
      ∧ (words multiplied.text).count .openParen ≤ (words "(x)*(2+y)").count .openParen
      ∧ Dropped '(' ')' multiplied.text.toList "x * 2 + y".toList
      ∧ parseUpTo 9 "x * 2 + y" ≠ .ok multiplied := by
  have parsed : parseUpTo 3 "(x)*(2+y)" = .ok multiplied := by
    refine parseUpTo_of_accepted ⟨[(.openParen, 1), (.name "x", 2), (.closeParen, 1), (.times, 1),
      (.openParen, 1), (.number 2, 2), (.plus, 2), (.name "y", 2), (.closeParen, 1)], by decide +kernel, ?_, ?_⟩
    · have factor : Derives .expression 1 [(.name "x", 2)] (.var .x) :=
        .expression (.additive (.multiplicative (.unary (.power (.var .x)))))
      have sum : Derives .expression 1 [(.number 2, 2), (.plus, 2), (.name "y", 2)]
          (.binary .add (.num 2) (.var .y)) :=
        .expression (.sum (.additive (.multiplicative (.unary (.power (.num 2))))) rfl
          (.multiplicative (.unary (.power (.var .y)))))
      exact .expression (.additive (.product (.multiplicative (.unary (.power (.group factor)))) rfl
        (.unary (.power (.group sum)))))
    · refine ⟨by decide, ?_, by simp [multiplied], ?_⟩
      · intro x n h
        obtain ⟨rfl, -⟩ : x = 2 ∧ n = 2 := by simpa using h
        decide
      · rw [Expr.depth_eq_height]
        decide
  have dropped : Dropped '(' ')' multiplied.text.toList "x * 2 + y".toList :=
    ⟨"x * ".toList, "2 + y".toList, [], by decide +kernel, by decide⟩
  obtain ⟨fewest, -, needed⟩ := parseUpTo_text_fewest parsed
  exact ⟨parsed, fewest, dropped, needed _ (.inl dropped) 9⟩

end UnitCalc.Formula
