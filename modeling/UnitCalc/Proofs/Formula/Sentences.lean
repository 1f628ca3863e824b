import UnitCalc.Proofs.Formula.Completeness

/-!
# `Proofs.Formula.Sentences` — how a formula can go on

The grammar without its limits: a `Phrase` is a part of a formula over finite numbers, however deep it is
and however many arguments its calls have, and a `Sentence` is a whole formula of this kind. `Opens` says
that tokens can be completed to a phrase.

That tokens can *not* go on in some way is shown with a machine, which reads a formula from left to right
and knows no more than what may stand next and which parentheses are open (`Place`). It gets through every
sentence (`Sentence.follow`). So where it refuses a token, no sentence goes on with that token
(`Refused.not_sentence`).
-/

namespace UnitCalc.Formula

/-! ## Phrases -/

/-- Every number among the tokens is finite. -/
def FiniteNumbers (ps : List Placed) : Prop :=
  ∀ x n, ((Token.number x, n) : Placed) ∈ ps → x.isFinite = true

/-- The tokens are a part of a formula over finite numbers, at the level `n`. Neither its depth nor the
    number of arguments of a call matters. -/
def Phrase (p : Part) (n : Nat) (ts : List Token) : Prop :=
  ∃ ps e, ps.map Prod.fst = ts ∧ Derives p n ps e ∧ FiniteNumbers ps

/-- The tokens are a formula over finite numbers, whatever its depth and its numbers of arguments. -/
def Sentence (ts : List Token) : Prop :=
  Phrase .expression 0 ts

theorem finiteNumbers_cons {t : Placed} {ps : List Placed} (ht : ∀ x, t.1 = .number x → x.isFinite = true)
    (h : FiniteNumbers ps) : FiniteNumbers (t :: ps) := by
  intro x n hx
  rcases List.mem_cons.1 hx with rfl | hx
  · exact ht x rfl
  · exact h x n hx

theorem finiteNumbers_append {ps qs : List Placed} (hp : FiniteNumbers ps) (hq : FiniteNumbers qs) :
    FiniteNumbers (ps ++ qs) := by
  intro x n hx
  rcases List.mem_append.1 hx with hx | hx
  · exact hp x n hx
  · exact hq x n hx

theorem finiteNumbers_nil : FiniteNumbers [] :=
  fun _ _ hx => absurd hx List.not_mem_nil

theorem FiniteNumbers.of_subset {ps qs : List Placed} (h : FiniteNumbers ps) (sub : qs ⊆ ps) :
    FiniteNumbers qs :=
  fun x n hx => h x n (sub hx)

theorem finiteNumbers_separated {n : Nat} {args : List (List Placed)} (h : ∀ a ∈ args, FiniteNumbers a) :
    FiniteNumbers (separated n args) := by
  intro x m hx
  obtain ⟨a, ha, hx⟩ := (mem_separated (by simp)).1 hx
  exact h a ha x m hx

/-- The tokens of arguments behind the first one, each with its comma. -/
theorem map_commas (n : Nat) (parts : List (List Placed × Expr)) :
    ((parts.map Prod.fst).flatMap ((.comma, n) :: ·)).map Prod.fst
      = (parts.map fun a => a.1.map Prod.fst).flatMap (.comma :: ·) := by
  simp [List.map_flatMap, List.flatMap_map]

/-- The tokens are the arguments of a call, with commas between them. -/
inductive Arguments (n : Nat) : List Token → Prop
  | empty : Arguments n []
  | cons {a : List Token} {args : List (List Token)} :
      Phrase .expression n a → (∀ b ∈ args, Phrase .expression n b) →
        Arguments n (a ++ args.flatMap (.comma :: ·))

/-- One more argument behind the others. -/
theorem Arguments.concat {n : Nat} {ts a : List Token} (h : Arguments n ts) (some_token : ts ≠ [])
    (last : Phrase .expression n a) : Arguments n (ts ++ .comma :: a) := by
  cases h with
  | empty => exact absurd rfl some_token
  | @cons b args first others =>
    have all : ∀ c ∈ args ++ [a], Phrase .expression n c :=
      List.forall_mem_append.2 ⟨others, List.forall_mem_singleton.2 last⟩
    simpa using Arguments.cons first all

namespace Phrase

variable {p q r : Part} {n m : Nat} {ts us : List Token}

/-- The tokens of a part are also those of the parts that it is read as. -/
theorem of_derives (h : Phrase p n ts) (build : ∀ {ps e}, Derives p n ps e → Derives q m ps e) :
    Phrase q m ts := by
  obtain ⟨ps, e, tokens, derives, finite⟩ := h
  exact ⟨ps, e, tokens, build derives, finite⟩

theorem expression (h : Phrase .additive (n + 1) ts) : Phrase .expression n ts :=
  h.of_derives .expression

theorem additive (h : Phrase .multiplicative n ts) : Phrase .additive n ts :=
  h.of_derives .additive

theorem multiplicative (h : Phrase .unary n ts) : Phrase .multiplicative n ts :=
  h.of_derives .multiplicative

theorem unary (h : Phrase .power n ts) : Phrase .unary n ts :=
  h.of_derives .unary

theorem power (h : Phrase .primary n ts) : Phrase .power n ts :=
  h.of_derives .power

/-- Two parts with an operator between them. -/
theorem joined {t : Token} (hl : Phrase p n ts) (hr : Phrase q m us) (operator : ∀ x, t ≠ .number x)
    (build : ∀ {ps qs l e}, Derives p n ps l → Derives q m qs e →
      ∃ whole, Derives r n (ps ++ (t, n) :: qs) whole) :
    Phrase r n (ts ++ t :: us) := by
  obtain ⟨ps, l, rfl, left, finite⟩ := hl
  obtain ⟨qs, e, rfl, right, finite'⟩ := hr
  obtain ⟨whole, derives⟩ := build left right
  have rest : FiniteNumbers ((t, n) :: qs) :=
    finiteNumbers_cons (fun x number => absurd number (operator x)) finite'
  exact ⟨ps ++ (t, n) :: qs, whole, by simp, derives, finiteNumbers_append finite rest⟩

theorem sum {t : Token} {op : BinOp} (hl : Phrase .additive n ts) (ht : t.additive? = some op)
    (hr : Phrase .multiplicative n us) : Phrase .additive n (ts ++ t :: us) := by
  refine hl.joined hr ?_ fun left right => ⟨_, .sum left ht right⟩
  rintro x rfl
  cases ht

theorem product {t : Token} {op : BinOp} (hl : Phrase .multiplicative n ts)
    (ht : t.multiplicative? = some op) (hr : Phrase .unary n us) :
    Phrase .multiplicative n (ts ++ t :: us) := by
  refine hl.joined hr ?_ fun left right => ⟨_, .product left ht right⟩
  rintro x rfl
  cases ht

theorem raised (hb : Phrase .primary n ts) (hx : Phrase .unary (n + 1) us) :
    Phrase .power n (ts ++ .caret :: us) :=
  hb.joined hx nofun fun base exponent => ⟨_, .raised base exponent⟩

theorem negation (h : Phrase .unary (n + 1) ts) : Phrase .unary n (.minus :: ts) := by
  obtain ⟨ps, e, rfl, derives, finite⟩ := h
  exact ⟨(.minus, n) :: ps, _, rfl, .negation derives, finiteNumbers_cons nofun finite⟩

theorem num {x : Float} (finite : x.isFinite = true) : Phrase .primary n [.number x] := by
  refine ⟨[(.number x, n)], _, rfl, .num x, finiteNumbers_cons ?_ finiteNumbers_nil⟩
  rintro y ⟨⟩
  exact finite

theorem const (c : Const) : Phrase .primary n [.name c.key] :=
  ⟨[(.name c.key, n)], _, rfl, .const c, finiteNumbers_cons nofun finiteNumbers_nil⟩

theorem var (v : Var) : Phrase .primary n [.name v.name] :=
  ⟨[(.name v.name, n)], _, rfl, .var v, finiteNumbers_cons nofun finiteNumbers_nil⟩

theorem group (h : Phrase .expression n ts) : Phrase .primary n (.openParen :: ts ++ [.closeParen]) := by
  obtain ⟨ps, e, rfl, derives, finite⟩ := h
  refine ⟨_, e, ?_, .group derives, ?_⟩
  · simp
  · exact finiteNumbers_append (finiteNumbers_cons nofun finite)
      (finiteNumbers_cons nofun finiteNumbers_nil)

/-- Each argument has its tokens from a derivation. -/
theorem exists_parts {args : List (List Token)} (h : ∀ a ∈ args, Phrase .expression n a) :
    ∃ parts : List (List Placed × Expr), (parts.map fun a => a.1.map Prod.fst) = args
      ∧ ∀ a ∈ parts, Derives .expression n a.1 a.2 ∧ FiniteNumbers a.1 := by
  induction args with
  | nil => exact ⟨[], rfl, List.forall_mem_nil _⟩
  | cons a args ih =>
    obtain ⟨⟨ps, e, rfl, derives, finite⟩, others⟩ := List.forall_mem_cons.1 h
    obtain ⟨parts, rfl, each⟩ := ih others
    exact ⟨(ps, e) :: parts, rfl, List.forall_mem_cons.2 ⟨⟨derives, finite⟩, each⟩⟩

theorem call (f : Func) (h : Arguments n ts) :
    Phrase .primary n (.name f.name :: .openParen :: ts ++ [.closeParen]) := by
  cases h with
  | empty =>
    exact ⟨_, _, rfl, .call f (List.forall_mem_nil _), finiteNumbers_cons nofun
      (finiteNumbers_cons nofun (finiteNumbers_cons nofun finiteNumbers_nil))⟩
  | cons first others =>
    obtain ⟨ps, e, rfl, derives, finite⟩ := first
    obtain ⟨parts, rfl, each⟩ := exists_parts others
    have all : ∀ a ∈ (ps, e) :: parts, Derives .expression n a.1 a.2 ∧ FiniteNumbers a.1 :=
      List.forall_mem_cons.2 ⟨⟨derives, finite⟩, each⟩
    refine ⟨_, _, ?_, .call f fun a ha => (all a ha).1, ?_⟩
    · rw [List.map_cons, separated_cons, ← map_commas n]
      simp
    · refine finiteNumbers_append (finiteNumbers_cons nofun (finiteNumbers_cons nofun ?_))
        (finiteNumbers_cons nofun finiteNumbers_nil)
      exact finiteNumbers_separated (List.forall_mem_map.2 fun a ha => (all a ha).2)

end Phrase

/-- The tokens can be completed to a part of a formula. -/
def Opens (p : Part) (n : Nat) (ts : List Token) : Prop :=
  ∃ more, Phrase p n (ts ++ more)

/-! ## Reading from left to right -/

/-- What an open parenthesis encloses. -/
inductive Bracket where
  | group | arguments
deriving DecidableEq, Repr

/-- What may stand next. -/
inductive Awaited where
  | operand
  /-- The first argument of a call, or the parenthesis behind no arguments at all. -/
  | firstArgument
  /-- The parenthesis behind the name of a function. -/
  | opening
  | operator
deriving DecidableEq, Repr

/-- A place between two tokens of a formula: what may stand next, and the parentheses that are open there,
    the innermost one first. -/
structure Place where
  awaited : Awaited
  brackets : List Bracket
deriving DecidableEq, Repr

namespace Place

/-- The place behind a token where an operand may stand. -/
def operand? (brackets : List Bracket) : Token → Option Place
  | .number x => if x.isFinite then some ⟨.operator, brackets⟩ else none
  | .name text =>
    match Var.ofName? text, Const.ofName? text, Func.ofName? text with
    | some _, _, _ | none, some _, _ => some ⟨.operator, brackets⟩
    | none, none, some _ => some ⟨.opening, brackets⟩
    | none, none, none => none
  | .minus => some ⟨.operand, brackets⟩
  | .openParen => some ⟨.operand, .group :: brackets⟩
  | _ => none

/-- The place behind a token where an operator may stand. The end of the text counts as a token here, and
    is refused as long as a parenthesis is open. -/
def operator? : List Bracket → Token → Option Place
  | brackets, .plus | brackets, .minus | brackets, .times | brackets, .slash | brackets, .caret =>
    some ⟨.operand, brackets⟩
  | _ :: brackets, .closeParen => some ⟨.operator, brackets⟩
  | .arguments :: brackets, .comma => some ⟨.operand, .arguments :: brackets⟩
  | [], .stop => some ⟨.operator, []⟩
  | _, _ => none

/-- The place behind a token, if it may stand there. -/
def next? (place : Place) (t : Token) : Option Place :=
  match place.awaited with
  | .operand => operand? place.brackets t
  | .firstArgument => if t = .closeParen then operator? place.brackets t else operand? place.brackets t
  | .opening => if t = .openParen then some ⟨.firstArgument, .arguments :: place.brackets⟩ else none
  | .operator => operator? place.brackets t

/-- The place behind tokens, if they may stand there one after another. -/
def follow (place : Place) (ts : List Token) : Option Place :=
  ts.foldlM next? place

theorem follow_nil (place : Place) : place.follow [] = some place :=
  rfl

theorem follow_cons (place : Place) (t : Token) (ts : List Token) :
    place.follow (t :: ts) = (place.next? t).bind (follow · ts) :=
  rfl

theorem follow_append (place : Place) (ts us : List Token) :
    place.follow (ts ++ us) = (place.follow ts).bind (follow · us) :=
  List.foldlM_append

/-- The first argument of a call begins like any operand. -/
theorem follow_firstArgument {brackets : List Bracket} {t : Token} {ts : List Token} {place : Place}
    (h : follow ⟨.operand, brackets⟩ (t :: ts) = some place) :
    follow ⟨.firstArgument, brackets⟩ (t :: ts) = some place := by
  have no_close : t ≠ .closeParen := by
    rintro rfl
    cases h
  rw [follow_cons, next?] at h ⊢
  rw [if_neg no_close]
  exact h

theorem next?_additive {t : Token} {op : BinOp} (ht : t.additive? = some op) (brackets : List Bracket) :
    next? ⟨.operator, brackets⟩ t = some ⟨.operand, brackets⟩ := by
  rcases additive?_eq_some.1 ht with ⟨rfl, -⟩ | ⟨rfl, -⟩ <;> simp [next?, operator?]

theorem next?_multiplicative {t : Token} {op : BinOp} (ht : t.multiplicative? = some op)
    (brackets : List Bracket) : next? ⟨.operator, brackets⟩ t = some ⟨.operand, brackets⟩ := by
  rcases multiplicative?_eq_some.1 ht with ⟨rfl, -⟩ | ⟨rfl, -⟩ <;> simp [next?, operator?]

theorem next?_caret (brackets : List Bracket) :
    next? ⟨.operator, brackets⟩ .caret = some ⟨.operand, brackets⟩ := by
  simp [next?, operator?]

/-- Behind a complete expression stands what closes it, or ends it. -/
theorem next?_of_endsAt {brackets : List Bracket} {t : Token} (last : Part.expression.EndsAt t)
    (close : t = .closeParen → brackets = []) (comma : t = .comma → brackets.head? ≠ some .arguments)
    (stop : t = .stop → brackets ≠ []) : next? ⟨.operator, brackets⟩ t = none := by
  obtain ⟨no_caret, no_product, no_sum⟩ := last
  rw [next?]
  cases t with
  | caret => exact absurd rfl no_caret
  | times | slash => cases no_product
  | plus | minus => cases no_sum
  | closeParen =>
    rw [close rfl]
    rfl
  | comma =>
    match brackets, comma rfl with
    | [], _ | .group :: _, _ => rfl
    | .arguments :: _, no_arguments => exact absurd rfl no_arguments
  | stop =>
    obtain ⟨b, brackets, rfl⟩ := List.exists_cons_of_ne_nil (stop rfl)
    cases b <;> rfl
  | number | name | openParen | illegal => cases brackets <;> rfl

/-- A name may stand as an operand if it is a variable or a constant, and begins one if it is a function. -/
theorem next?_name (brackets : List Bracket) (v : Var) (c : Const) (f : Func) :
    next? ⟨.operand, brackets⟩ (.name v.name) = some ⟨.operator, brackets⟩
      ∧ next? ⟨.operand, brackets⟩ (.name c.key) = some ⟨.operator, brackets⟩
      ∧ next? ⟨.operand, brackets⟩ (.name f.name) = some ⟨.opening, brackets⟩ := by
  simp [next?, operand?, v.ofName?_name, c.ofName?_key, f.ofName?_name]

end Place

open Place

/-- An operand, an operator or parenthesis, and another operand. -/
theorem follow_operands {brackets : List Bracket} {ts us : List Token} {t : Token}
    (left : follow ⟨.operand, brackets⟩ ts = some ⟨.operator, brackets⟩)
    (between : next? ⟨.operator, brackets⟩ t = some ⟨.operand, brackets⟩) :
    follow ⟨.operand, brackets⟩ (ts ++ t :: us) = follow ⟨.operand, brackets⟩ us := by
  rw [follow_append, left, Option.bind_some, follow_cons, between, Option.bind_some]

/-- Arguments behind the first one take the place of one more operand. -/
theorem follow_arguments {brackets : List Bracket} {args : List (List Token)}
    (each : ∀ a ∈ args, follow ⟨.operand, .arguments :: brackets⟩ a
      = some ⟨.operator, .arguments :: brackets⟩) :
    follow ⟨.operator, .arguments :: brackets⟩ (args.flatMap (.comma :: ·))
      = some ⟨.operator, .arguments :: brackets⟩ := by
  induction args with
  | nil => rfl
  | cons a args ih =>
    obtain ⟨first, others⟩ := List.forall_mem_cons.1 each
    have comma : next? ⟨.operator, .arguments :: brackets⟩ .comma
        = some ⟨.operand, .arguments :: brackets⟩ := by
      simp [next?, operator?]
    rw [List.flatMap_cons, follow_append, follow_cons, comma, Option.bind_some, first, Option.bind_some]
    exact ih others

theorem follow_operand_tokens {brackets : List Bracket} {ps qs : List Placed} {t : Placed}
    (left : FiniteNumbers ps → follow ⟨.operand, brackets⟩ (ps.map Prod.fst) = some ⟨.operator, brackets⟩)
    (between : next? ⟨.operator, brackets⟩ t.1 = some ⟨.operand, brackets⟩)
    (right : FiniteNumbers qs → follow ⟨.operand, brackets⟩ (qs.map Prod.fst) = some ⟨.operator, brackets⟩)
    (finite : FiniteNumbers (ps ++ t :: qs)) :
    follow ⟨.operand, brackets⟩ ((ps ++ t :: qs).map Prod.fst) = some ⟨.operator, brackets⟩ := by
  have first := left (finite.of_subset (List.subset_append_left _ _))
  have second := right (finite.of_subset
    (List.subset_append_of_subset_right _ (List.subset_cons_self _ _)))
  rw [List.map_append, List.map_cons, follow_operands first between, second]

/-- **The machine gets through every part of a formula**, and stands where an operator may follow. -/
theorem Derives.follow {p : Part} {n : Nat} {ps : List Placed} {e : Expr} (h : Derives p n ps e)
    (finite : FiniteNumbers ps) (brackets : List Bracket) :
    Place.follow ⟨.operand, brackets⟩ (ps.map Prod.fst) = some ⟨.operator, brackets⟩ := by
  induction h generalizing brackets with
  | expression _ ih | additive _ ih | multiplicative _ ih | unary _ ih | power _ ih =>
    exact ih finite brackets
  | sum _ op _ ihl ihr =>
    exact follow_operand_tokens (ihl · brackets) (next?_additive op brackets) (ihr · brackets) finite
  | product _ op _ ihl ihr =>
    exact follow_operand_tokens (ihl · brackets) (next?_multiplicative op brackets) (ihr · brackets) finite
  | raised _ _ ihb ihx =>
    exact follow_operand_tokens (ihb · brackets) (next?_caret brackets) (ihx · brackets) finite
  | negation _ ih => exact ih (finite.of_subset (List.subset_cons_self _ _)) brackets
  | num x =>
    have hx := finite x _ List.mem_cons_self
    simp [follow_cons, follow_nil, next?, operand?, hx]
  | var v => simp [follow_cons, follow_nil, (next?_name brackets v .e .sqrt).1]
  | const c => simp [follow_cons, follow_nil, (next?_name brackets .x c .sqrt).2.1]
  | group _ ih =>
    have inside := ih (finite.of_subset (fun t ht => by simp [ht])) (.group :: brackets)
    rw [List.cons_append, List.map_cons, List.map_append]
    show Place.follow ⟨.operand, .group :: brackets⟩ _ = _
    rw [follow_append, inside]
    rfl
  | @call n f args derives ih =>
    rw [List.cons_append, List.cons_append, List.map_cons, List.map_cons, List.map_append, follow_cons,
      (next?_name brackets .x .e f).2.2]
    show Place.follow ⟨.firstArgument, .arguments :: brackets⟩ _ = _
    have each : ∀ a ∈ args, Place.follow ⟨.operand, .arguments :: brackets⟩ (a.1.map Prod.fst)
        = some ⟨.operator, .arguments :: brackets⟩ := by
      intro a ha
      refine ih a ha (finite.of_subset ?_) _
      obtain ⟨before, behind, split⟩ := separated_piece (n := n) (List.mem_map_of_mem (f := Prod.fst) ha)
      intro t ht
      rw [split]
      simp [ht]
    cases args with
    | nil => rfl
    | cons a args =>
      obtain ⟨first, others⟩ := List.forall_mem_cons.1 each
      obtain ⟨t, qs, tokens, -⟩ := (derives a List.mem_cons_self).exists_head
      have begins : Place.follow ⟨.firstArgument, .arguments :: brackets⟩ (a.1.map Prod.fst)
          = some ⟨.operator, .arguments :: brackets⟩ := by
        rw [tokens, List.map_cons] at first ⊢
        exact follow_firstArgument first
      rw [List.map_cons, separated_cons, List.map_append, map_commas, List.append_assoc, follow_append,
        begins, Option.bind_some, follow_append, follow_arguments (List.forall_mem_map.2 others)]
      rfl

/-- The machine gets through tokens and refuses the next one. -/
def Refused (place : Place) (ts : List Token) (t : Token) : Prop :=
  ∃ stuck, place.follow ts = some stuck ∧ stuck.next? t = none

namespace Refused

variable {place : Place} {ts : List Token} {t : Token}

theorem here (h : place.next? t = none) : Refused place [] t :=
  ⟨place, rfl, h⟩

/-- What is refused later on is refused from the beginning. -/
theorem behind {middle : Place} {before : List Token} (reached : place.follow before = some middle)
    (h : Refused middle ts t) : Refused place (before ++ ts) t := by
  obtain ⟨stuck, inside, refused⟩ := h
  exact ⟨stuck, by rw [follow_append, reached, Option.bind_some, inside], refused⟩

theorem cons {middle : Place} {u : Token} (h : place.next? u = some middle) (later : Refused middle ts t) :
    Refused place (u :: ts) t :=
  .behind (by rw [follow_cons, h, Option.bind_some, follow_nil]) later

/-- What an operand refuses, the first argument of a call refuses, unless it could be left out. -/
theorem firstArgument {brackets : List Bracket} (h : Refused ⟨.operand, brackets⟩ ts t)
    (no_close : t ≠ .closeParen ∨ ts ≠ []) : Refused ⟨.firstArgument, brackets⟩ ts t := by
  obtain ⟨stuck, inside, refused⟩ := h
  cases ts with
  | nil =>
    obtain rfl : ⟨.operand, brackets⟩ = stuck := Option.some.inj inside
    refine .here ?_
    rw [next?] at refused ⊢
    rw [if_neg (by simpa using no_close)]
    exact refused
  | cons u us => exact ⟨stuck, follow_firstArgument inside, refused⟩

end Refused

/-- Where a formula begins: an operand may stand, and no parenthesis is open. -/
def Place.start : Place :=
  ⟨.operand, []⟩

theorem Phrase.follow {p : Part} {n : Nat} {ts : List Token} (h : Phrase p n ts) (brackets : List Bracket) :
    Place.follow ⟨.operand, brackets⟩ ts = some ⟨.operator, brackets⟩ := by
  obtain ⟨ps, e, rfl, derives, finite⟩ := h
  exact derives.follow finite brackets

theorem Phrase.ne_nil {p : Part} {n : Nat} {ts : List Token} (h : Phrase p n ts) : ts ≠ [] := by
  rintro rfl
  cases h.follow []

/-- The machine gets through the arguments of a call. -/
theorem Arguments.follow {n : Nat} {ts : List Token} (h : Arguments n ts) (some_token : ts ≠ [])
    (brackets : List Bracket) :
    Place.follow ⟨.firstArgument, .arguments :: brackets⟩ ts = some ⟨.operator, .arguments :: brackets⟩ := by
  cases h with
  | empty => exact absurd rfl some_token
  | @cons a args first others =>
    obtain ⟨t, a, rfl⟩ := List.exists_cons_of_ne_nil first.ne_nil
    rw [follow_append, follow_firstArgument (first.follow _), Option.bind_some]
    exact follow_arguments fun b hb => (others b hb).follow _

/-- **No sentence goes on with a token that the machine refuses**, nor ends where it refuses the end. -/
theorem Refused.not_sentence {ts : List Token} {t : Token} (h : Refused .start ts t) :
    (t = .stop → ¬ Sentence ts) ∧ ∀ more, ¬ Sentence (ts ++ t :: more) := by
  obtain ⟨stuck, reached, refused⟩ := h
  constructor
  · rintro rfl sentence
    have through := Phrase.follow sentence []
    obtain rfl : stuck = ⟨.operator, []⟩ := Option.some.inj (reached.symm.trans through)
    cases refused
  · intro more sentence
    have through := Phrase.follow sentence []
    rw [follow_append, show Place.follow ⟨.operand, []⟩ ts = some stuck from reached, Option.bind_some,
      follow_cons, refused] at through
    cases through

end UnitCalc.Formula
