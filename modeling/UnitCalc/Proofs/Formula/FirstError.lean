import UnitCalc.Proofs.Formula.Offsets
import UnitCalc.Proofs.Formula.Sentences
import UnitCalc.Proofs.Formula.Soundness

/-!
# `Proofs.Formula.FirstError` — where a syntax error is found

The parser finds a syntax error at the first token that cannot be right (`parseUpTo_first_wrong`): what
stands before it begins some sentence, and no sentence goes on with it.

`Meets` is a judgement with two postconditions, one for the runs that read something and one for those that
stop for a syntax error; both look at the tokens that are left. A rule that reads a part leaves it complete
(`Whole`), and one that stops leaves it broken off (`BrokenOff`), where the machine of `Sentences` refuses the
next token. Each small step of a parser has a lemma for `Meets`, and each rule of the grammar one that is put
together from these.
-/

namespace UnitCalc.Formula

/-- The faults of the syntax: neither of a number of arguments nor of a depth. -/
def ParseKind.IsSyntax (kind : ParseKind) : Prop :=
  kind = .emptyExpression ∨ kind = .unexpectedToken ∨ kind = .unbalancedParens ∨ kind = .unknownIdentifier

/-- The first of the tokens, or the end of the text. -/
def firstToken : List Located → Token
  | [] => .stop
  | t :: _ => t.token

theorem Session.current_eq (s : Session) : s.current = firstToken s.rest := by
  obtain ⟨rest, stop, nesting⟩ := s
  cases rest <;> rfl

theorem exists_cons_of_firstToken {ts : List Located} {t : Token} (h : firstToken ts = t)
    (go_on : t ≠ .stop) : ∃ u us, ts = u :: us ∧ u.token = t := by
  cases ts with
  | nil => exact absurd h.symm go_on
  | cons u us => exact ⟨u, us, rfl, h⟩

namespace Parser

variable {α β : Type} {limit : Nat} {ts : List Located}

/-- The run from the session `s` has read a value as `Q` says, with the tokens that are left, or has stopped
    for a syntax error at the current token, with the tokens that are left as `E` says, or for another
    error. -/
def Ends (s : Session) (Q : α → List Located → Prop) (E : List Located → Prop) :
    Except Stop α × Session → Prop
  | (.ok a, s') => s'.stop = s.stop ∧ Q a s'.rest
  | (.error (.error e), s') => e.kind.IsSyntax → s'.stop = s.stop ∧ e.position = s'.position ∧ E s'.rest
  | (.error .exhausted, _) => True

/-- Every run of the parser from the tokens `ts` ends as `Q` and `E` say. -/
def Meets (p : Parser α) (ts : List Located) (Q : α → List Located → Prop) (E : List Located → Prop) : Prop :=
  ∀ s, s.rest = ts → Ends s Q E (p s)

section Steps

variable {Q : β → List Located → Prop} {E : List Located → Prop}

theorem meets_bind {p : Parser α} {f : α → Parser β} {R : α → List Located → Prop} (hp : Meets p ts R E)
    (hf : ∀ a us, R a us → Meets (f a) us Q E) : Meets (p >>= f) ts Q E := by
  intro s start
  have first := hp s start
  show Ends s Q E (andThen p f s)
  rw [andThen]
  generalize p s = run at first ⊢
  obtain ⟨(_ | _) | a, s'⟩ := run
  · exact first
  · trivial
  · obtain ⟨stop, read⟩ := first
    have second := hf a s'.rest read s' rfl
    dsimp only
    generalize f a s' = run at second ⊢
    obtain ⟨(_ | _) | b, s''⟩ := run
    · intro syntactic
      obtain ⟨stop', position, broken⟩ := second syntactic
      exact ⟨stop'.trans stop, position, broken⟩
    · trivial
    · exact ⟨second.1.trans stop, second.2⟩

theorem meets_mono {p : Parser β} {Q' : β → List Located → Prop} {E' : List Located → Prop}
    (h : Meets p ts Q' E') (hQ : ∀ b us, Q' b us → Q b us) (hE : ∀ us, E' us → E us) : Meets p ts Q E := by
  intro s start
  have run := h s start
  generalize p s = outcome at run ⊢
  obtain ⟨(e | _) | b, s'⟩ := outcome
  · intro syntactic
    obtain ⟨stop, position, broken⟩ := run syntactic
    exact ⟨stop, position, hE _ broken⟩
  · trivial
  · exact ⟨run.1, hQ _ _ run.2⟩

/-- What stops the first parser is read as what stops both. -/
theorem meets_bind_of {p : Parser α} {f : α → Parser β} {R : α → List Located → Prop}
    {E' : List Located → Prop}
    (hp : Meets p ts R E') (hE : ∀ us, E' us → E us) (hf : ∀ a us, R a us → Meets (f a) us Q E) :
    Meets (p >>= f) ts Q E :=
  meets_bind (meets_mono hp (fun _ _ read => read) hE) hf

theorem meets_current {f : Token → Parser β} (h : Meets (f (firstToken ts)) ts Q E) :
    Meets (current >>= f) ts Q E := by
  intro s start
  have run := h s start
  rw [← start, ← s.current_eq] at run
  exact run

theorem meets_remaining {f : Nat → Parser β} (h : Meets (f ts.length) ts Q E) :
    Meets (remaining >>= f) ts Q E := by
  intro s start
  have run := h s start
  rw [← start] at run
  exact run

theorem meets_position {f : Nat → Parser β} (h : ∀ start, Meets (f start) ts Q E) :
    Meets (position >>= f) ts Q E :=
  fun s start => h s.position s start

theorem meets_advance {f : Unit → Parser β} (h : Meets (f ()) ts.tail Q E) : Meets (advance >>= f) ts Q E :=
  fun s start => h s.advance (by rw [Session.advance, start])

theorem meets_done {b : β} (h : Q b ts) : Meets (done b) ts Q E :=
  fun s start => ⟨rfl, by rw [start]; exact h⟩

theorem meets_fail {fault : ParseFault} (h : E ts) : Meets (fail fault) ts Q E :=
  fun s start _ => ⟨rfl, rfl, by rw [start]; exact h⟩

theorem meets_failAt {fault : ParseFault} {position : Nat} (other : ¬ fault.kind.IsSyntax) :
    Meets (failAt fault position) ts Q E :=
  fun _ _ syntactic => absurd syntactic other

theorem meets_exhausted : Meets exhausted ts Q E :=
  fun _ _ => trivial

/-- Too many levels are no syntax error, and the tokens that are left do not depend on the level. -/
theorem meets_nested {p : Parser β} (h : Meets p ts Q E) : Meets (nested limit p) ts Q E := by
  intro s start
  simp only [nested]
  by_cases refused : (limit : Int) < s.nesting.enter.level
  · rw [if_pos refused]
    intro syntactic
    rcases syntactic with kind | kind | kind | kind <;> cases kind
  · rw [if_neg refused]
    have run := h { s with nesting := s.nesting.enter } start
    generalize p { s with nesting := s.nesting.enter } = outcome at run ⊢
    obtain ⟨(_ | _) | _, _⟩ := outcome <;> exact run

theorem meets_node {Q : Expr → List Located → Prop} {e : Expr} (h : Q e ts) :
    Meets (node limit e) ts Q E := by
  rw [node]
  split
  · intro s start syntactic
    rcases syntactic with kind | kind | kind | kind <;> cases kind
  · exact meets_done h

theorem meets_closeParen {Q : Unit → List Located → Prop}
    (close : ∀ t us, ts = t :: us → t.token = .closeParen → Q () us)
    (other : firstToken ts ≠ .closeParen → E ts) : Meets closeParen ts Q E := by
  refine meets_current ?_
  split
  · next first =>
    obtain ⟨t, us, rfl, token⟩ := exists_cons_of_firstToken first (by simp)
    intro s start
    exact ⟨rfl, by rw [Session.advance, start]; exact close t us rfl token⟩
  · next first => exact meets_fail (other (by rw [first]; simp))
  · next found no_close _ => exact meets_fail (other no_close)

end Steps

end Parser

/-! ## Parts that are whole, and parts that are broken off -/

/-- The tokens `ts` begin with a part that ends before the tokens `us`. -/
def Whole (p : Part) (n : Nat) (ts us : List Located) : Prop :=
  ∃ qs, ts = qs ++ us ∧ Phrase p n (qs.map Located.token) ∧ p.EndsAt (firstToken us)

/-- The tokens `ts` begin with a part that is broken off before the tokens `us`: what stands before them can
    be completed, but not by the first one of them. -/
def BrokenOff (p : Part) (n : Nat) (ts us : List Located) : Prop :=
  ∃ qs, ts = qs ++ us ∧ Opens p n (qs.map Located.token)
    ∧ ∀ brackets, Refused ⟨.operand, brackets⟩ (qs.map Located.token) (firstToken us)

variable {p q : Part} {n m : Nat} {ts us : List Located}

theorem Whole.up (h : Whole p n ts us) (phrase : ∀ {ts}, Phrase p n ts → Phrase q m ts)
    (ends : ∀ t, p.EndsAt t → q.EndsAt t) : Whole q m ts us := by
  obtain ⟨qs, split, read, last⟩ := h
  exact ⟨qs, split, phrase read, ends _ last⟩

theorem BrokenOff.up (h : BrokenOff p n ts us) (phrase : ∀ {ts}, Phrase p n ts → Phrase q m ts) :
    BrokenOff q m ts us := by
  obtain ⟨qs, split, ⟨more, opens⟩, refused⟩ := h
  exact ⟨qs, split, ⟨more, phrase opens⟩, refused⟩

/-- A part is broken off before its first token. -/
theorem BrokenOff.here (opens : Opens p n [])
    (refused : ∀ brackets, Place.next? ⟨.operand, brackets⟩ (firstToken ts) = none) : BrokenOff p n ts ts :=
  ⟨[], rfl, opens, fun brackets => .here (refused brackets)⟩

/-- A part is broken off in its last operand, before which the tokens `before` have been read. -/
theorem BrokenOff.operand {before : List Located} (h : BrokenOff p n ts us)
    (phrase : ∀ {us}, Phrase p n us → Phrase q m (before.map Located.token ++ us))
    (reached : ∀ brackets, Place.follow ⟨.operand, brackets⟩ (before.map Located.token)
      = some ⟨.operand, brackets⟩) : BrokenOff q m (before ++ ts) us := by
  obtain ⟨qs, rfl, ⟨more, opens⟩, refused⟩ := h
  refine ⟨before ++ qs, by simp, ⟨more, ?_⟩, ?_⟩
  · rw [List.map_append, List.append_assoc]
    exact phrase opens
  · intro brackets
    rw [List.map_append]
    exact .behind (reached brackets) (refused brackets)

/-- The tokens `ts` begin with the arguments of a call, which end before the tokens `us`. -/
def WholeArguments (n : Nat) (ts us : List Located) : Prop :=
  ∃ qs, ts = qs ++ us ∧ Arguments n (qs.map Located.token)
    ∧ (firstToken us = .closeParen
      ∨ qs ≠ [] ∧ Part.expression.EndsAt (firstToken us) ∧ firstToken us ≠ .comma)

/-- The tokens `ts` begin with the arguments of a call, which are broken off before the tokens `us`. -/
def BrokenOffArguments (n : Nat) (ts us : List Located) : Prop :=
  ∃ qs, ts = qs ++ us ∧ (∃ more, Arguments n (qs.map Located.token ++ more))
    ∧ ∀ brackets, Refused ⟨.firstArgument, .arguments :: brackets⟩ (qs.map Located.token) (firstToken us)

namespace Parser

variable {limit : Nat}

/-- A chain is whole where no further operator stands, and broken off where its last operand is. -/
theorem meets_chain {operator? : Token → Option BinOp} {operand : Parser Expr}
    (stop : operator? .stop = none)
    (next : ∀ ts, Meets operand ts (fun _ => Whole q n ts) (BrokenOff q n ts))
    (join : ∀ {ls t op rs}, Phrase p n ls → operator? t = some op → Phrase q n rs →
      Phrase p n (ls ++ t :: rs))
    (goes_on : ∀ {t op}, operator? t = some op → ∀ brackets,
      Place.next? ⟨.operator, brackets⟩ t = some ⟨.operand, brackets⟩)
    (ends : ∀ {t}, q.EndsAt t → operator? t = none → p.EndsAt t)
    (turns : Nat) (left : Expr) {before : List Located} (read : Phrase p n (before.map Located.token))
    (last : q.EndsAt (firstToken ts)) (enough : ts.length ≤ turns) :
    Meets (chain limit operator? operand turns left) ts (fun _ => Whole p n (before ++ ts))
      (BrokenOff p n (before ++ ts)) := by
  induction turns generalizing left before ts with
  | zero =>
    obtain rfl : ts = [] := List.eq_nil_of_length_eq_zero (Nat.le_zero.1 enough)
    exact meets_done ⟨before, rfl, read, ends last stop⟩
  | succ turns ih =>
    refine meets_current ?_
    split
    · next none => exact meets_done ⟨before, rfl, read, ends last none⟩
    · next op found =>
      have go_on : firstToken ts ≠ .stop := by
        intro none
        rw [none, stop] at found
        cases found
      obtain ⟨t, us, rfl, token⟩ := exists_cons_of_firstToken rfl go_on
      rw [← token] at found
      -- what has been read with the operator behind it
      have reached : ∀ brackets, Place.follow ⟨.operand, brackets⟩ ((before ++ [t]).map Located.token)
          = some ⟨.operand, brackets⟩ := by
        intro brackets
        rw [List.map_append]
        exact follow_operands (read.follow brackets) (goes_on found brackets)
      have split : before ++ t :: us = before ++ [t] ++ us := by simp
      refine meets_advance (meets_bind_of (next us) ?_ ?_)
      · intro vs broken
        rw [split]
        refine broken.operand (fun phrase => ?_) reached
        simpa using join read found phrase
      · rintro right vs ⟨qs, rfl, operand_read, last⟩
        refine meets_bind (R := fun _ ws => ws = vs) (meets_node rfl) ?_
        rintro e _ rfl
        have longer : Phrase p n ((before ++ t :: qs).map Located.token) := by
          simpa using join read found operand_read
        have rest := ih e longer last (by simp at enough ⊢; omega)
        simpa using rest

section Arguments

variable {argument : Parser Expr}

/-- Further arguments, behind those that have been read already. -/
theorem meets_moreArguments
    (next : ∀ ts, Meets argument ts (fun _ => Whole .expression n ts) (BrokenOff .expression n ts))
    (turns : Nat) {before : List Located} (read : Arguments n (before.map Located.token))
    (some_token : before ≠ []) (last : Part.expression.EndsAt (firstToken ts)) (enough : ts.length ≤ turns) :
    Meets (moreArguments argument turns) ts (fun _ => WholeArguments n (before ++ ts))
      (BrokenOffArguments n (before ++ ts)) := by
  induction turns generalizing before ts with
  | zero =>
    obtain rfl : ts = [] := List.eq_nil_of_length_eq_zero (Nat.le_zero.1 enough)
    exact meets_done ⟨before, rfl, read, .inr ⟨some_token, last, nofun⟩⟩
  | succ turns ih =>
    refine meets_current ?_
    split
    · next comma =>
      obtain ⟨t, us, rfl, token⟩ := exists_cons_of_firstToken comma (by simp)
      refine meets_advance (meets_bind_of (next us) ?_ ?_)
      · rintro vs ⟨qs, rfl, ⟨more, opens⟩, refused⟩
        have reached : ∀ brackets, Place.follow ⟨.firstArgument, .arguments :: brackets⟩
            ((before ++ [t]).map Located.token) = some ⟨.operand, .arguments :: brackets⟩ := by
          intro brackets
          rw [List.map_append, Place.follow_append, read.follow (by simpa using some_token), Option.bind_some,
            List.map_singleton, token]
          rfl
        refine ⟨before ++ t :: qs, by simp, ⟨more, ?_⟩, ?_⟩
        · simpa [token] using read.concat (by simpa using some_token) opens
        · intro brackets
          simpa using Refused.behind (reached brackets) (refused _)
      · rintro e vs ⟨qs, rfl, argument_read, last⟩
        have longer : Arguments n ((before ++ t :: qs).map Located.token) := by
          simpa [token] using read.concat (by simpa using some_token) argument_read
        refine meets_bind (R := fun _ => WholeArguments n (before ++ t :: qs ++ vs)) ?_ ?_
        · have rest := @ih vs _ longer (by simp) last (by simp at enough ⊢; omega)
          simpa using rest
        · intro es ws whole
          exact meets_done (by simpa using whole)
    · next other =>
      exact meets_done ⟨before, rfl, read, .inr ⟨some_token, last, other⟩⟩

theorem meets_arguments
    (next : ∀ ts, Meets argument ts (fun _ => Whole .expression n ts) (BrokenOff .expression n ts)) :
    Meets (arguments argument) ts (fun _ => WholeArguments n ts) (BrokenOffArguments n ts) := by
  refine meets_current ?_
  split
  · next close => exact meets_done ⟨[], rfl, .empty, .inl close⟩
  · next no_close =>
    refine meets_bind_of (next ts) ?_ ?_
    · rintro us ⟨qs, rfl, ⟨more, opens⟩, refused⟩
      refine ⟨qs, rfl, ⟨more, ?_⟩, fun brackets => (refused _).firstArgument ?_⟩
      · simpa using Arguments.cons opens (List.forall_mem_nil _)
      · cases qs with
        | nil => exact .inl no_close
        | cons q qs => exact .inr (by simp)
    · rintro e us ⟨qs, rfl, read, last⟩
      have first : Arguments n (qs.map Located.token) := by
        simpa using Arguments.cons read (List.forall_mem_nil _)
      have some_token : qs ≠ [] := by simpa using read.ne_nil
      refine meets_remaining (meets_bind (meets_moreArguments next _ first some_token last Nat.le.refl) ?_)
      intro es vs whole
      exact meets_done whole

end Arguments

end Parser

/-! ## Rules -/

namespace Rule

open Formula.Parser

variable {limit : Nat} {use : Rule → Parser Expr}

/-- What a rule may rely on where it is used: `before` are the tokens of its part that have been passed
    already, and `ts` those that are left. -/
def Awaits : Rule → List Located → List Located → Prop
  | name text, before, ts => before = [] ∧ firstToken ts = .name text
  | call f _, before, ts => before.map Located.token = [.name f.name] ∧ firstToken ts = .openParen
  | power, before, ts | primary, before, ts => before = [] ∧ firstToken ts ≠ .minus
  | _, before, _ => before = []

/-- Used for a rule, the parser leaves the part of that rule whole or broken off. -/
def Serves (use : Rule → Parser Expr) (rule : Rule) : Prop :=
  ∀ n before ts, Awaits rule before ts →
    Meets (use rule) ts (fun _ => Whole rule.part n (before ++ ts)) (BrokenOff rule.part n (before ++ ts))

variable (serves : ∀ rule, Serves use rule)

include serves in
theorem meets_expression : Meets (step limit use expression) ts (fun _ => Whole .expression n ts)
    (BrokenOff .expression n ts) := by
  refine meets_nested (meets_mono (serves additive (n + 1) [] ts rfl) ?_ ?_)
  · intro e us whole
    exact whole.up .expression fun _ last => last
  · intro us broken
    exact broken.up .expression

include serves in
theorem meets_additive : Meets (step limit use additive) ts (fun _ => Whole .additive n ts)
    (BrokenOff .additive n ts) := by
  have next := fun ts => serves multiplicative n [] ts rfl
  refine meets_bind_of (next ts) (fun us broken => broken.up .additive) ?_
  rintro left us ⟨qs, rfl, read, last⟩
  exact meets_remaining (meets_chain rfl next .sum Place.next?_additive
    (fun last stop => ⟨last.1, last.2, stop⟩) _ left read.additive last Nat.le.refl)

include serves in
theorem meets_multiplicative : Meets (step limit use multiplicative) ts (fun _ => Whole .multiplicative n ts)
    (BrokenOff .multiplicative n ts) := by
  have next := fun ts => serves unary n [] ts rfl
  refine meets_bind_of (next ts) (fun us broken => broken.up .multiplicative) ?_
  rintro left us ⟨qs, rfl, read, last⟩
  exact meets_remaining (meets_chain rfl next .product Place.next?_multiplicative
    (fun last stop => ⟨last, stop⟩) _ left read.multiplicative last Nat.le.refl)

include serves in
theorem meets_unary : Meets (step limit use unary) ts (fun _ => Whole .unary n ts)
    (BrokenOff .unary n ts) := by
  refine meets_current ?_
  split
  · next minus =>
    obtain ⟨t, us, rfl, token⟩ := exists_cons_of_firstToken minus (by simp)
    refine meets_advance (meets_bind (R := fun _ => Whole .unary n (t :: us))
      (meets_nested (meets_mono (serves unary (n + 1) [] us rfl) ?_ ?_)) ?_)
    · rintro e vs ⟨qs, split, read, last⟩
      refine ⟨t :: qs, congrArg (t :: ·) split, ?_, last⟩
      rw [List.map_cons, token]
      exact read.negation
    · intro vs broken
      have reached : ∀ brackets, Place.follow ⟨.operand, brackets⟩ ([t].map Located.token)
          = some ⟨.operand, brackets⟩ := by
        intro brackets
        rw [List.map_singleton, token]
        rfl
      refine broken.operand ?_ reached
      simpa [token] using .negation
    · intro e vs whole
      exact meets_node whole
  · next no_minus =>
    refine meets_mono (serves power n [] ts ⟨rfl, no_minus⟩) ?_ ?_
    · intro e us whole
      exact whole.up .unary fun _ last => last
    · intro us broken
      exact broken.up .unary

include serves in
theorem meets_power (no_minus : firstToken ts ≠ .minus) :
    Meets (step limit use power) ts (fun _ => Whole .power n ts) (BrokenOff .power n ts) := by
  refine meets_bind_of (serves primary n [] ts ⟨rfl, no_minus⟩) (fun us broken => broken.up .power) ?_
  rintro base us ⟨qs, rfl, read, -⟩
  refine meets_current ?_
  split
  · next caret =>
    obtain ⟨t, us, rfl, token⟩ := exists_cons_of_firstToken caret (by simp)
    have split : qs ++ t :: us = qs ++ [t] ++ us := by simp
    refine meets_advance (meets_bind (R := fun _ => Whole .power n (qs ++ t :: us))
      (meets_nested (meets_mono (serves unary (n + 1) [] us rfl) ?_ ?_)) ?_)
    · rintro e vs ⟨rs, rfl, exponent, last⟩
      refine ⟨qs ++ t :: rs, by simp, ?_, last⟩
      simpa [token] using read.raised exponent
    · intro vs broken
      rw [split]
      refine broken.operand (fun exponent => ?_) ?_
      · simpa [token] using read.raised exponent
      · intro brackets
        rw [List.map_append, List.map_singleton, token]
        exact follow_operands (read.follow brackets) (Place.next?_caret brackets)
    · intro e vs whole
      exact meets_node whole
  · next no_caret => exact meets_done ⟨qs, rfl, read.power, no_caret⟩

theorem opens_primary (n : Nat) : Opens .primary n [] :=
  ⟨_, Phrase.var .x⟩

include serves in
theorem meets_primary (no_minus : firstToken ts ≠ .minus) :
    Meets (step limit use primary) ts (fun _ => Whole .primary n ts) (BrokenOff .primary n ts) := by
  refine meets_current ?_
  cases first : firstToken ts with
  | number x =>
    obtain ⟨t, us, rfl, token⟩ := exists_cons_of_firstToken first (by simp)
    dsimp only
    split
    · next finite =>
      refine meets_advance (meets_done ⟨[t], rfl, ?_, trivial⟩)
      rw [List.map_singleton, token]
      exact .num finite
    · next infinite =>
      refine meets_fail (.here (opens_primary n) fun brackets => ?_)
      simp [first, Place.next?, Place.operand?, infinite]
  | name text => exact serves (name text) n [] ts ⟨rfl, first⟩
  | openParen =>
    obtain ⟨t, us, rfl, token⟩ := exists_cons_of_firstToken first (by simp)
    have opened : ∀ brackets,
        Place.next? ⟨.operand, brackets⟩ t.token = some ⟨.operand, .group :: brackets⟩ := by
      intro brackets
      rw [token]
      rfl
    refine meets_advance (meets_bind_of (serves expression n [] us rfl) ?_ ?_)
    · rintro vs ⟨qs, rfl, ⟨more, opens⟩, refused⟩
      refine ⟨t :: qs, rfl, ⟨more ++ [.closeParen], ?_⟩, fun brackets => .cons (opened brackets) (refused _)⟩
      simpa [token] using opens.group
    · rintro e vs ⟨qs, rfl, read, last⟩
      refine meets_bind (R := fun _ => Whole .primary n (t :: (qs ++ vs))) (meets_closeParen ?_ ?_) ?_
      · rintro u ws rfl close
        refine ⟨t :: qs ++ [u], by simp, ?_, trivial⟩
        simpa [token, close] using read.group
      · intro no_close
        refine ⟨t :: qs, rfl, ⟨[.closeParen], ?_⟩, ?_⟩
        · simpa [token] using read.group
        · intro brackets
          refine .cons (opened brackets) ⟨_, read.follow _, ?_⟩
          exact Place.next?_of_endsAt last (fun close => absurd close no_close) (by simp) (by simp)
      · intro _ ws whole
        exact meets_done whole
  | minus => exact absurd first no_minus
  | _ =>
    refine meets_fail (.here (opens_primary n) fun brackets => ?_)
    simp [first, Place.next?, Place.operand?]

include serves in
theorem meets_name {text : String} (first : firstToken ts = .name text) :
    Meets (step limit use (name text)) ts (fun _ => Whole .primary n ts) (BrokenOff .primary n ts) := by
  obtain ⟨t, us, rfl, token⟩ := exists_cons_of_firstToken first (by simp)
  rw [step]
  split
  · next v hv =>
    refine meets_advance (meets_done ⟨[t], rfl, ?_, trivial⟩)
    rw [List.map_singleton, token, ← Var.name_of_ofName? hv]
    exact .var v
  · next c _ hc =>
    refine meets_advance (meets_done ⟨[t], rfl, ?_, trivial⟩)
    rw [List.map_singleton, token, ← Const.key_of_ofName? hc]
    exact .const c
  · next f no_var no_const hf =>
    obtain rfl := Func.name_of_ofName? hf
    refine meets_position fun start => meets_advance (meets_current ?_)
    split
    · next opening =>
      exact serves (call f start) n [t] us ⟨by rw [List.map_singleton, token], opening⟩
    · next not_called =>
      refine meets_fail ⟨[t], rfl, ⟨[.openParen, .closeParen], ?_⟩, fun brackets => ?_⟩
      · rw [List.map_singleton, token]
        exact .call f .empty
      · refine ⟨⟨.opening, brackets⟩, ?_, ?_⟩
        · simp [Place.follow_cons, Place.follow_nil, token, (Place.next?_name brackets .x .e f).2.2]
        · rw [Place.next?]
          exact if_neg not_called
  · next no_var no_const no_func =>
    refine meets_fail (.here (opens_primary n) fun brackets => ?_)
    simp [firstToken, token, Place.next?, Place.operand?, no_var, no_const, no_func]

include serves in
theorem meets_call {f : Func} {start : Nat} {before : List Located}
    (called : before.map Located.token = [.name f.name]) (opening : firstToken ts = .openParen) :
    Meets (step limit use (call f start)) ts (fun _ => Whole .primary n (before ++ ts))
      (BrokenOff .primary n (before ++ ts)) := by
  obtain ⟨t, us, rfl, token⟩ := exists_cons_of_firstToken opening (by simp)
  have reached : ∀ brackets, Place.follow ⟨.operand, brackets⟩ ((before ++ [t]).map Located.token)
      = some ⟨.firstArgument, .arguments :: brackets⟩ := by
    intro brackets
    rw [List.map_append, called, List.map_singleton, token, List.singleton_append, Place.follow_cons,
      (Place.next?_name brackets .x .e f).2.2]
    rfl
  refine meets_advance (meets_bind_of (meets_arguments fun ts => serves expression n [] ts rfl) ?_ ?_)
  · rintro vs ⟨qs, rfl, ⟨more, opens⟩, refused⟩
    refine ⟨before ++ t :: qs, by simp, ⟨more ++ [.closeParen], ?_⟩, fun brackets => ?_⟩
    · simpa [called, token] using Phrase.call f opens
    · simpa using Refused.behind (reached brackets) (refused brackets)
  · rintro args vs ⟨qs, rfl, read, last⟩
    refine meets_bind (R := fun _ => Whole .primary n (before ++ t :: (qs ++ vs))) (meets_closeParen ?_ ?_) ?_
    · rintro u ws rfl close
      refine ⟨before ++ t :: qs ++ [u], by simp, ?_, trivial⟩
      simpa [called, token, close] using Phrase.call f read
    · intro no_close
      obtain ⟨some_token, last, no_comma⟩ := last.resolve_left no_close
      refine ⟨before ++ t :: qs, by simp, ⟨[.closeParen], ?_⟩, fun brackets => ?_⟩
      · simpa [called, token] using Phrase.call f read
      · have through := read.follow (by simpa using some_token) brackets
        have refused : Place.next? ⟨.operator, .arguments :: brackets⟩ (firstToken vs) = none :=
          Place.next?_of_endsAt last (fun close => absurd close no_close) (fun comma => absurd comma no_comma)
            (by simp)
        simpa using Refused.behind (reached brackets) ⟨_, through, refused⟩
    · intro _ ws whole
      split
      · exact meets_node whole
      · exact meets_failAt (by rintro (kind | kind | kind | kind) <;> cases kind)

include serves in
/-- Every rule serves as long as the rules it uses do. -/
theorem serves_step (rule : Rule) : Serves (step limit use) rule := by
  intro n before ts awaits
  cases rule with
  | expression =>
    obtain rfl : before = [] := awaits
    exact meets_expression serves
  | additive =>
    obtain rfl : before = [] := awaits
    exact meets_additive serves
  | multiplicative =>
    obtain rfl : before = [] := awaits
    exact meets_multiplicative serves
  | unary =>
    obtain rfl : before = [] := awaits
    exact meets_unary serves
  | power =>
    obtain ⟨rfl, no_minus⟩ := awaits
    exact meets_power serves no_minus
  | primary =>
    obtain ⟨rfl, no_minus⟩ := awaits
    exact meets_primary serves no_minus
  | name text =>
    obtain ⟨rfl, first⟩ := awaits
    exact meets_name serves first
  | call f start =>
    obtain ⟨called, opening⟩ := awaits
    exact meets_call serves called opening

theorem serves_within (limit budget : Nat) (rule : Rule) : Serves (within limit budget) rule := by
  induction budget generalizing rule with
  | zero => exact fun _ _ _ _ => meets_exhausted
  | succ budget ih => exact serves_step ih rule

end Rule

/-! ## Whole texts -/

/-- The tokens of `ts` before the tokens `us` begin a sentence, but none that goes on with the first of
    these. -/
def Misleads (ts us : List Located) : Prop :=
  ∃ qs, ts = qs ++ us ∧ Opens .expression 0 (qs.map Located.token)
    ∧ Refused .start (qs.map Located.token) (firstToken us)

theorem Parser.meets_formula (limit budget : Nat) (ts : List Located) :
    Meets (formula limit budget) ts (fun _ _ => True) (Misleads ts) := by
  refine meets_current ?_
  split
  · next empty =>
    refine meets_fail ⟨[], rfl, ⟨_, (Phrase.var .x).power.unary.multiplicative.additive.expression⟩, .here ?_⟩
    rw [empty]
    rfl
  · refine meets_bind_of (Rule.serves_within limit budget .expression 0 [] ts rfl) ?_ ?_
    · rintro us ⟨qs, split, opens, refused⟩
      exact ⟨qs, split, opens, refused []⟩
    · rintro e us ⟨qs, split, read, last⟩
      -- a complete formula can only be followed by the end of the text
      have goes_on : firstToken us ≠ .stop → Misleads ts us := fun no_stop =>
        ⟨qs, split, ⟨[], by rw [List.append_nil]; exact read⟩, _, read.follow [],
          Place.next?_of_endsAt last (fun _ => rfl) (fun _ => nofun) (fun stop => absurd stop no_stop)⟩
      refine meets_current ?_
      split
      · exact meets_done trivial
      · next close => exact meets_fail (goes_on (by rw [close]; nofun))
      · next no_stop _ => exact meets_fail (goes_on no_stop)

/-- The token at which a text is left, or its end, stands in the stream behind the tokens that have been
    read. -/
theorem stream_eq_of_tokens {s : String} {qs us : List Located} (split : tokens s = qs ++ us) :
    ∃ behind, stream s = qs ++ us.headD ⟨.stop, byteLength s.toList⟩ :: behind := by
  cases us with
  | nil => exact ⟨[], by rw [stream, split, List.append_nil]; rfl⟩
  | cons u us =>
    refine ⟨us ++ [⟨.stop, byteLength s.toList⟩], ?_⟩
    rw [stream, split, List.append_assoc, List.cons_append, List.headD_cons]

/-- Where the parser stops for a syntax error, its text misleads. -/
theorem misleads_of_parseUpTo {limit : Nat} {s : String} {e : ParseError} (h : parseUpTo limit s = .error e)
    (syntactic : e.kind.IsSyntax) :
    ∃ us, Misleads (tokens s) us ∧ e.position = (us.headD ⟨.stop, byteLength s.toList⟩).start := by
  have run := Parser.meets_formula limit (Session.ofText s).budget (tokens s) (.ofText s) rfl
  rw [parseUpTo, Session.parse] at h
  generalize Parser.formula limit (Session.ofText s).budget (.ofText s) = outcome at run h
  obtain ⟨(e' | _) | tree, s'⟩ := outcome
  · obtain rfl : e' = e := by simpa using h
    obtain ⟨stop, position, misleads⟩ := run syntactic
    refine ⟨s'.rest, misleads, position.trans ?_⟩
    rw [Session.position]
    split
    · next none => rw [none]; exact stop
    · next some => rw [some]; rfl
  · obtain rfl : _ = e := by simpa using h
    rcases syntactic with kind | kind | kind | kind <;> cases kind
  · cases h

/-- **A syntax error points at the first token that cannot be right.** The tokens before it are the beginning
    of some sentence, and no sentence begins with them and goes on with it. Where it is the end of the text,
    they are themselves no sentence. -/
theorem parseUpTo_first_wrong {limit : Nat} {s : String} {e : ParseError} (h : parseUpTo limit s = .error e)
    (syntactic : e.kind.IsSyntax) :
    ∃ before wrong behind, stream s = before ++ ⟨wrong, e.position⟩ :: behind
      ∧ (∀ t ∈ before, t.start < e.position) ∧ (∀ t ∈ behind, e.position < t.start)
      ∧ (∃ more, Sentence (before.map Located.token ++ more))
      ∧ if wrong = .stop then e.position = byteLength s.toList ∧ ¬ Sentence (before.map Located.token)
        else ∀ more, ¬ Sentence (before.map Located.token ++ wrong :: more) := by
  obtain ⟨us, ⟨before, split, opens, refused⟩, position⟩ := misleads_of_parseUpTo h syntactic
  obtain ⟨behind, tokens_split⟩ := stream_eq_of_tokens split
  have here : us.headD ⟨.stop, byteLength s.toList⟩ = ⟨firstToken us, e.position⟩ := by
    rw [position]
    cases us <;> rfl
  rw [here] at tokens_split
  have order := pairwise_stream s
  rw [tokens_split, List.pairwise_append, List.pairwise_cons] at order
  obtain ⟨-, ⟨later, -⟩, earlier⟩ := order
  obtain ⟨no_end, no_more⟩ := refused.not_sentence
  refine ⟨before, firstToken us, behind, tokens_split, ?_, later, opens, ?_⟩
  · exact fun t ht => earlier t ht _ List.mem_cons_self
  by_cases stop : firstToken us = .stop
  · rw [if_pos stop]
    refine ⟨?_, no_end stop⟩
    cases us with
    | nil => exact position
    | cons u us =>
      -- no token of a text is its end
      have found : u ∈ tokens s := by rw [split]; simp
      exact absurd (List.mem_map.2 ⟨u, found, stop⟩) (stop_not_mem_words s)
  · rw [if_neg stop]
    exact no_more

/-- In `2*,x` nothing is wrong before the comma. -/
theorem parseUpTo_first_wrong_comma :
    parseUpTo 64 "2*,x" = .error ⟨.unexpected .comma, 2⟩
      ∧ ∃ before wrong behind, stream "2*,x" = before ++ ⟨wrong, 2⟩ :: behind
        ∧ (∀ t ∈ before, t.start < 2) ∧ (∀ t ∈ behind, 2 < t.start)
        ∧ (∃ more, Sentence (before.map Located.token ++ more))
        ∧ if wrong = .stop then 2 = byteLength "2*,x".toList ∧ ¬ Sentence (before.map Located.token)
          else ∀ more, ¬ Sentence (before.map Located.token ++ wrong :: more) := by
  -- trees have no decidable equality, so that the error alone is compared
  have found : (match parseUpTo 64 "2*,x" with | .error e => some e | .ok _ => none)
      = some ⟨.unexpected .comma, 2⟩ := by
    decide +kernel
  have refused : parseUpTo 64 "2*,x" = .error ⟨.unexpected .comma, 2⟩ := by
    cases parsed : parseUpTo 64 "2*,x" with
    | ok tree =>
      rw [parsed] at found
      cases found
    | error e =>
      rw [parsed] at found
      exact congrArg Except.error (Option.some.inj found)
  exact ⟨refused, parseUpTo_first_wrong refused (.inr (.inl rfl))⟩

end UnitCalc.Formula
