import UnitCalc.Proofs.Formula.Completeness
import UnitCalc.Proofs.Formula.Soundness
import UnitCalc.Proofs.Formula.Words

/-!
# `Proofs.Formula.Reading` — the parser reads the grammar

The parser accepts a text exactly when the words of the text are a formula (`parseUpTo_eq_ok_iff`). Both
directions are known of expressions; what is left is that nothing stands behind the expression, and that
the budget of a session is never exhausted.
-/

namespace UnitCalc.Formula

variable {limit : Nat}

theorem Session.at_ofText (s : String) : (Session.ofText s).At 0 (words s) :=
  ⟨rfl, rfl⟩

/-- A formula is an expression and nothing behind it. -/
theorem Parser.ensures_formula (budget : Nat) (ts : List Token) :
    Ensures (formula limit budget) 0 ts fun e us =>
      us.headD .stop = .stop ∧ Begins limit .expression 0 ts e us := by
  refine ensures_current ?_
  split
  · exact ensures_fail
  · have read : Ensures (Rule.expression.within limit budget) 0 ts (Begins limit .expression 0 ts) := by
      cases budget with
      | zero => exact ensures_exhausted
      | succ budget => exact Rule.ensures_expression fun limit_pos => Rule.ensures_within limit_pos budget
    refine ensures_bind read fun e us begins => ensures_current ?_
    split
    · next stop => exact ensures_done ⟨stop, begins⟩
    · exact ensures_fail
    · exact ensures_fail

theorem Parser.reads_formula {ts : List Token} {e : Expr} (h : Accepted limit ts e) :
    Reads (formula limit (8 * (ts.length + 1))) 0 ts e [] := by
  obtain ⟨ps, rfl, derives, adm⟩ := h
  obtain ⟨t, qs, tokens, no_stop, -⟩ := derives.exists_head
  have read := (Rule.covered derives adm).readable (8 * (ps.length + 1)) []
    (by simp only [Part.rank]; omega) (Part.expression_endsAt (.inr (.inr rfl)))
  rw [List.append_nil] at read
  rw [List.length_map]
  refine reads_current ?_
  rw [if_neg (by rw [tokens]; exact no_stop)]
  exact reads_bind read (reads_current reads_done)

/-- What is parsed is a formula. -/
theorem accepted_of_parseUpTo {s : String} {e : Expr} (h : parseUpTo limit s = .ok e) :
    Accepted limit (words s) e := by
  rw [parseUpTo, Session.parse] at h
  split at h
  · next parsed s' run =>
    obtain rfl : parsed = e := by simpa using h
    obtain ⟨us, -, stop, ps, split, derives, adm⟩ :=
      Parser.ensures_formula _ _ _ _ _ (Session.at_ofText s) run
    have nothing : us = [] := by
      cases us with
      | nil => rfl
      | cons t us =>
        obtain rfl : t = .stop := stop
        exact absurd (by rw [split]; simp) (stop_not_mem_words s)
    rw [nothing, List.append_nil] at split
    exact ⟨ps, split.symm, derives, adm⟩
  · cases h
  · cases h

/-- Every formula is parsed. -/
theorem parseUpTo_of_accepted {s : String} {e : Expr} (h : Accepted limit (words s) e) :
    parseUpTo limit s = .ok e := by
  obtain ⟨s', run, -⟩ := Parser.reads_formula h _ (Session.at_ofText s)
  rw [← (Session.at_ofText s).length] at run
  rw [parseUpTo, Session.parse, Session.budget, run]

/-- A higher limit parses more, and the same trees. -/
theorem parseUpTo_mono {limit limit' : Nat} (le : limit ≤ limit') {s : String} {e : Expr}
    (h : parseUpTo limit s = .ok e) : parseUpTo limit' s = .ok e :=
  parseUpTo_of_accepted ((accepted_of_parseUpTo h).mono le)

/-- **The parser accepts exactly its grammar.** A text is parsed to the tree `e` within a limit if and
    only if its words are a formula within that limit with the tree `e`, and no text has two trees, not
    even under different limits. -/
theorem parseUpTo_eq_ok_iff (s : String) :
    (∀ limit e, parseUpTo limit s = .ok e ↔ Accepted limit (words s) e) ∧
      ∀ limit limit' e e', Accepted limit (words s) e → Accepted limit' (words s) e' → e = e' := by
  refine ⟨fun limit e => ⟨accepted_of_parseUpTo, parseUpTo_of_accepted⟩, ?_⟩
  intro limit limit' e e' h h'
  have first := parseUpTo_mono (Nat.le_max_left limit limit') (parseUpTo_of_accepted h)
  have second := parseUpTo_mono (Nat.le_max_right limit limit') (parseUpTo_of_accepted h')
  exact Except.ok.inj (first.symm.trans second)

/-- The minus sign stands before the power, and the exponent lies three levels deep. -/
theorem parseUpTo_negated_power :
    parseUpTo 3 "-x^2" = .ok (.neg (.binary .pow (.var .x) (.num 2))) := by
  refine ((parseUpTo_eq_ok_iff "-x^2").1 3 _).2
    ⟨[(.minus, 1), (.name "x", 2), (.caret, 2), (.number 2, 3)], by decide +kernel, ?_, ?_⟩
  · exact .expression (.additive (.multiplicative (.negation (.unary (.raised (.var .x)
      (.unary (.power (.num 2))))))))
  · refine ⟨by decide, ?_, by simp, ?_⟩
    · intro x n h
      obtain ⟨rfl, -⟩ : x = 2 ∧ n = 3 := by simpa using h
      decide
    · rw [Expr.depth_eq_height]
      decide

end UnitCalc.Formula
