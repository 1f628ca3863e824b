import UnitCalc.Formula.Parser
import UnitCalc.Proofs.Formula.Tree

/-!
# `Proofs.Formula.Grammar` — which token sequences are formulas

The grammar as a relation, with no parser in it. `Derives p n ts e` says that the tokens `ts` are a
part `p` of a formula with the tree `e`. Sums and products grow at their left end, so their operators
associate to the left; an exponent is a unary part, so powers associate to the right. The only names in
a formula are those of the variables, constants and functions.

Every token carries the number of levels it lies under. The index `n` is the level around the part: an
expression puts its tokens one level further in, and so do a negation its operand and a power its
exponent. Every whole formula, group and argument is an expression.

What the grammar leaves open is in `Admissible`: finite numbers, accepted argument counts, and the two
limits. `Accepted` puts both together.
-/

namespace UnitCalc.Formula

/-! ## Names -/

theorem Var.name_of_ofName? {s : String} {v : Var} (h : Var.ofName? s = some v) : v.name = s := by
  simpa using List.find?_some h

theorem Const.key_of_ofName? {s : String} {c : Const} (h : Const.ofName? s = some c) : c.key = s := by
  simpa using List.find?_some h

theorem Func.name_of_ofName? {s : String} {f : Func} (h : Func.ofName? s = some f) : f.name = s := by
  simpa using List.find?_some h

/-- A variable is found by its name. -/
theorem Var.ofName?_name (v : Var) : Var.ofName? v.name = some v := by
  cases v <;> decide

/-- A constant is found by its name, which is no variable's. -/
theorem Const.ofName?_key (c : Const) : Var.ofName? c.key = none ∧ Const.ofName? c.key = some c := by
  cases c <;> decide

/-- A function is found by its name, which is no variable's and no constant's. -/
theorem Func.ofName?_name (f : Func) :
    Var.ofName? f.name = none ∧ Const.ofName? f.name = none ∧ Func.ofName? f.name = some f := by
  cases f <;> decide

/-! ## Derivations -/

/-- The parts of a formula, from the loosest to the tightest. -/
inductive Part where
  | expression | additive | multiplicative | unary | power | primary
deriving DecidableEq, Repr

/-- A token and the number of levels it lies under. -/
abbrev Placed : Type := Token × Nat

/-- The argument lists of a call with commas between them. -/
def separated (n : Nat) (args : List (List Placed)) : List Placed :=
  List.intercalate [(.comma, n)] args

theorem separated_cons (n : Nat) (a : List Placed) (args : List (List Placed)) :
    separated n (a :: args) = a ++ args.flatMap ((.comma, n) :: ·) := by
  induction args generalizing a with
  | nil => simp [separated, List.intercalate]
  | cons b args ih =>
    have split : separated n (a :: b :: args) = a ++ (.comma, n) :: separated n (b :: args) := by
      simp [separated, List.intercalate]
    rw [split, ih b]
    simp

/-- There are at least as many tokens as commas. -/
theorem length_le_commas (n : Nat) (args : List (List Placed)) :
    args.length ≤ (args.flatMap ((.comma, n) :: ·)).length := by
  induction args with
  | nil => exact Nat.le.refl
  | cons a args ih =>
    rw [List.flatMap_cons, List.length_append, List.length_cons, List.length_cons]
    omega

/-- Every argument is a piece of the whole list. -/
theorem separated_piece {n : Nat} {a : List Placed} {args : List (List Placed)} (h : a ∈ args) :
    ∃ before behind, separated n args = before ++ (a ++ behind) := by
  obtain ⟨first, last, rfl⟩ := List.append_of_mem h
  cases first with
  | nil => exact ⟨[], _, separated_cons n a last⟩
  | cons b first =>
    refine ⟨b ++ first.flatMap ((.comma, n) :: ·) ++ [(.comma, n)],
      last.flatMap ((.comma, n) :: ·), ?_⟩
    rw [List.cons_append, separated_cons, List.flatMap_append, List.flatMap_cons]
    simp

/-- The tokens are a part of a formula with the tree `e`, at the level `n`. -/
inductive Derives : Part → Nat → List Placed → Expr → Prop
  | expression {n ts e} : Derives .additive (n + 1) ts e → Derives .expression n ts e
  | additive {n ts e} : Derives .multiplicative n ts e → Derives .additive n ts e
  | sum {n ts t op us l r} : Derives .additive n ts l → Token.additive? t = some op →
      Derives .multiplicative n us r → Derives .additive n (ts ++ (t, n) :: us) (.binary op l r)
  | multiplicative {n ts e} : Derives .unary n ts e → Derives .multiplicative n ts e
  | product {n ts t op us l r} : Derives .multiplicative n ts l →
      Token.multiplicative? t = some op → Derives .unary n us r →
      Derives .multiplicative n (ts ++ (t, n) :: us) (.binary op l r)
  | unary {n ts e} : Derives .power n ts e → Derives .unary n ts e
  | negation {n ts e} : Derives .unary (n + 1) ts e → Derives .unary n ((.minus, n) :: ts) (.neg e)
  | power {n ts e} : Derives .primary n ts e → Derives .power n ts e
  | raised {n ts us b x} : Derives .primary n ts b → Derives .unary (n + 1) us x →
      Derives .power n (ts ++ (.caret, n) :: us) (.binary .pow b x)
  | num {n} (x : Float) : Derives .primary n [(.number x, n)] (.num x)
  | var {n} (v : Var) : Derives .primary n [(.name v.name, n)] (.var v)
  | const {n} (c : Const) : Derives .primary n [(.name c.key, n)] (.const c)
  | group {n ts e} : Derives .expression n ts e →
      Derives .primary n ((.openParen, n) :: ts ++ [(.closeParen, n)]) e
  | call {n} (f : Func) {args : List (List Placed × Expr)} :
      (∀ a ∈ args, Derives .expression n a.1 a.2) →
      Derives .primary n
        ((.name f.name, n) :: (.openParen, n) :: separated n (args.map Prod.fst) ++ [(.closeParen, n)])
        (.call f (args.map Prod.snd))

theorem additive?_eq_some {t : Token} {op : BinOp} :
    t.additive? = some op ↔ t = .plus ∧ op = .add ∨ t = .minus ∧ op = .sub := by
  cases t <;> simp [Token.additive?, eq_comm]

theorem multiplicative?_eq_some {t : Token} {op : BinOp} :
    t.multiplicative? = some op ↔ t = .times ∧ op = .mul ∨ t = .slash ∧ op = .div := by
  cases t <;> simp [Token.multiplicative?, eq_comm]

/-- Some token of a part lies at its level or further in. -/
theorem Derives.exists_level {p : Part} {n : Nat} {ts : List Placed} {e : Expr}
    (h : Derives p n ts e) : ∃ t ∈ ts, n ≤ t.2 := by
  induction h with
  | expression _ ih =>
    obtain ⟨t, ht, le⟩ := ih
    exact ⟨t, ht, by omega⟩
  | additive _ ih | multiplicative _ ih | unary _ ih | power _ ih => exact ih
  | sum | product | raised => exact ⟨_, List.mem_append_right _ List.mem_cons_self, Nat.le.refl⟩
  | negation | num | var | const | group | call => exact ⟨_, List.mem_cons_self, Nat.le.refl⟩

/-- A token stands in a list of arguments when it stands in one of them, or is a comma. -/
theorem mem_separated {t : Placed} {n : Nat} {args : List (List Placed)} (h : t ≠ (.comma, n)) :
    t ∈ separated n args ↔ ∃ a ∈ args, t ∈ a := by
  cases args with
  | nil => simp [separated, List.intercalate]
  | cons a args =>
    rw [separated_cons]
    simp [h]

/-- **The literals of a tree are its number tokens.** -/
theorem Derives.literals {p : Part} {n : Nat} {ts : List Placed} {e : Expr} {P : Float → Prop}
    (h : Derives p n ts e) : e.Literals P ↔ ∀ x m, ((Token.number x, m) : Placed) ∈ ts → P x := by
  induction h with
  | expression _ ih | additive _ ih | multiplicative _ ih | unary _ ih | power _ ih => exact ih
  | sum _ op _ ihl ihr =>
    rcases additive?_eq_some.1 op with ⟨rfl, -⟩ | ⟨rfl, -⟩ <;> simp [ihl, ihr, or_imp, forall_and]
  | product _ op _ ihl ihr =>
    rcases multiplicative?_eq_some.1 op with ⟨rfl, -⟩ | ⟨rfl, -⟩ <;>
      simp [ihl, ihr, or_imp, forall_and]
  | raised _ _ ihb ihx => simp [ihb, ihx, or_imp, forall_and]
  | negation _ ih | group _ ih => simp [ih]
  | num | var | const => simp
  | @call n f args _ ih =>
    have number : ∀ x m, ((Token.number x, m) : Placed) ∈ separated n (args.map Prod.fst)
        ↔ ∃ a ∈ args, ((Token.number x, m) : Placed) ∈ a.1 := by
      intro x m
      rw [mem_separated (by simp)]
      simp
    simp only [Expr.literals_call, List.forall_mem_map, List.cons_append, List.mem_cons,
      List.mem_append, Prod.mk.injEq, reduceCtorEq, false_and, false_or, List.not_mem_nil, or_false,
      number]
    constructor
    · rintro all x m ⟨a, ha, hx⟩
      exact (ih a ha).1 (all a ha) x m hx
    · intro all a ha
      exact (ih a ha).2 fun x m hx => all x m ⟨a, ha, hx⟩

/-! ## Formulas -/

/-- The checks that the grammar leaves open. -/
structure Admissible (limit : Nat) (ts : List Placed) (e : Expr) : Prop where
  /-- No token lies under more levels than the limit. -/
  levels : ∀ t ∈ ts, t.2 ≤ limit
  /-- Every number token is a finite number. -/
  numbers : ∀ x n, ((Token.number x, n) : Placed) ∈ ts → x.isFinite = true
  calls : e.CallsAccepted
  depth : e.depth ≤ limit

namespace Admissible

variable {limit n : Nat} {ps qs : List Placed} {l r : Expr}

/-- What holds of a part holds of the parts inside it. -/
theorem sub (h : Admissible limit ps l) (tokens : qs ⊆ ps) (calls : r.CallsAccepted)
    (height : r.height ≤ l.height) : Admissible limit qs r := by
  have depth := h.depth
  rw [Expr.depth_eq_height] at depth
  refine ⟨fun t ht => h.levels t (tokens ht), fun x m hx => h.numbers x m (tokens hx), calls, ?_⟩
  rw [Expr.depth_eq_height]
  exact Nat.le_trans height depth

/-- A single token with a leaf as its tree. -/
theorem leaf {t : Token} {e : Expr} (limit_pos : 1 ≤ limit) (hn : n ≤ limit)
    (finite : ∀ x, t = .number x → x.isFinite = true) (calls : e.CallsAccepted) (height : e.height = 1) :
    Admissible limit [(t, n)] e := by
  refine ⟨?_, ?_, calls, ?_⟩
  · intro t ht
    rw [List.mem_singleton.1 ht]
    exact hn
  · intro x m hx
    exact finite x (congrArg Prod.fst (List.mem_singleton.1 hx)).symm
  · rw [Expr.depth_eq_height, height]
    exact limit_pos

theorem neg (hn : n ≤ limit) (h : Admissible limit ps l) (depth : (Expr.neg l).depth ≤ limit) :
    Admissible limit ((.minus, n) :: ps) (.neg l) := by
  refine ⟨List.forall_mem_cons.2 ⟨hn, h.levels⟩, ?_, Expr.callsAccepted_neg.2 h.calls, depth⟩
  intro x m hx
  exact h.numbers x m (by simpa using hx)

theorem binary {t : Token} {op : BinOp} (hn : n ≤ limit) (ht : ∀ x, t ≠ .number x)
    (hl : Admissible limit ps l) (hr : Admissible limit qs r)
    (depth : (Expr.binary op l r).depth ≤ limit) :
    Admissible limit (ps ++ (t, n) :: qs) (.binary op l r) := by
  refine ⟨?_, ?_, Expr.callsAccepted_binary.2 ⟨hl.calls, hr.calls⟩, depth⟩
  · exact List.forall_mem_append.2 ⟨hl.levels, List.forall_mem_cons.2 ⟨hn, hr.levels⟩⟩
  · intro x m hx
    rcases List.mem_append.1 hx with hx | hx
    · exact hl.numbers x m hx
    · rcases List.mem_cons.1 hx with hx | hx
      · exact absurd (congrArg Prod.fst hx).symm (ht x)
      · exact hr.numbers x m hx

theorem group (hn : n ≤ limit) (h : Admissible limit ps l) :
    Admissible limit ((.openParen, n) :: ps ++ [(.closeParen, n)]) l := by
  refine ⟨?_, ?_, h.calls, h.depth⟩
  · exact List.forall_mem_append.2 ⟨List.forall_mem_cons.2 ⟨hn, h.levels⟩,
      List.forall_mem_cons.2 ⟨hn, List.forall_mem_nil _⟩⟩
  · intro x m hx
    exact h.numbers x m (by simpa using hx)

theorem call {f : Func} {args : List (List Placed × Expr)} (hn : n ≤ limit)
    (h : ∀ a ∈ args, Admissible limit a.1 a.2) (accepted : f.arity.accepts args.length = true)
    (depth : (Expr.call f (args.map Prod.snd)).depth ≤ limit) :
    Admissible limit
      ((.name f.name, n) :: (.openParen, n) :: separated n (args.map Prod.fst) ++ [(.closeParen, n)])
      (.call f (args.map Prod.snd)) := by
  refine ⟨?_, ?_, ?_, depth⟩
  · intro t ht
    by_cases comma : t = (.comma, n)
    · rw [comma]
      exact hn
    · simp only [List.cons_append, List.mem_cons, List.mem_append, mem_separated comma, List.mem_map,
        List.not_mem_nil, or_false] at ht
      rcases ht with rfl | rfl | ⟨_, ⟨a, ha, rfl⟩, hta⟩ | rfl
      · exact hn
      · exact hn
      · exact (h a ha).levels t hta
      · exact hn
  · intro x m hx
    have inside : ((Token.number x, m) : Placed) ∈ separated n (args.map Prod.fst) := by simpa using hx
    obtain ⟨ps, hps, hx⟩ := (mem_separated (by simp)).1 inside
    obtain ⟨a, ha, rfl⟩ := List.mem_map.1 hps
    exact (h a ha).numbers x m hx
  · rw [Expr.callsAccepted_call, List.length_map, List.forall_mem_map]
    exact ⟨accepted, fun a ha => (h a ha).calls⟩

/-! What holds of a part holds of the parts inside it. -/

theorem of_neg (h : Admissible limit ((.minus, n) :: ps) (.neg l)) : Admissible limit ps l :=
  h.sub (List.subset_cons_self _ _) (Expr.callsAccepted_neg.1 h.calls) (Nat.le_succ _)

theorem of_left {t : Placed} {op : BinOp} (h : Admissible limit (ps ++ t :: qs) (.binary op l r)) :
    Admissible limit ps l :=
  h.sub (List.subset_append_left _ _) (Expr.callsAccepted_binary.1 h.calls).1
    (Nat.le_succ_of_le (Nat.le_max_left _ _))

theorem of_right {t : Placed} {op : BinOp} (h : Admissible limit (ps ++ t :: qs) (.binary op l r)) :
    Admissible limit qs r :=
  h.sub (List.subset_append_of_subset_right _ (List.subset_cons_self _ _))
    (Expr.callsAccepted_binary.1 h.calls).2 (Nat.le_succ_of_le (Nat.le_max_right _ _))

theorem of_group (h : Admissible limit ((.openParen, n) :: ps ++ [(.closeParen, n)]) l) :
    Admissible limit ps l :=
  h.sub (fun _ ht => List.mem_append_left _ (List.mem_cons_of_mem _ ht)) h.calls Nat.le.refl

theorem of_call {f : Func} {args : List (List Placed × Expr)} {a : List Placed × Expr} (ha : a ∈ args)
    (h : Admissible limit
      ((.name f.name, n) :: (.openParen, n) :: separated n (args.map Prod.fst) ++ [(.closeParen, n)])
      (.call f (args.map Prod.snd))) : Admissible limit a.1 a.2 := by
  obtain ⟨before, behind, split⟩ := separated_piece (n := n) (List.mem_map_of_mem (f := Prod.fst) ha)
  have tree : a.2 ∈ args.map Prod.snd := List.mem_map_of_mem ha
  refine h.sub ?_ ((Expr.callsAccepted_call.1 h.calls).2 a.2 tree)
    (Nat.le_succ_of_le (Expr.heightAll_le.1 Nat.le.refl a.2 tree))
  intro t ht
  rw [split]
  refine List.mem_append_left _ (List.mem_cons_of_mem _ (List.mem_cons_of_mem _ ?_))
  exact List.mem_append_right _ (List.mem_append_left _ ht)

end Admissible

/-- The tokens are a formula within a limit, with the tree `e`. -/
def Accepted (limit : Nat) (ts : List Token) (e : Expr) : Prop :=
  ∃ ps : List Placed, ps.map Prod.fst = ts ∧ Derives .expression 0 ps e ∧ Admissible limit ps e

/-- A higher limit accepts more. -/
theorem Accepted.mono {limit limit' : Nat} (le : limit ≤ limit') {ts : List Token} {e : Expr}
    (h : Accepted limit ts e) : Accepted limit' ts e := by
  obtain ⟨ps, tokens, derives, levels, numbers, calls, depth⟩ := h
  exact ⟨ps, tokens, derives, fun t ht => Nat.le_trans (levels t ht) le, numbers, calls,
    Nat.le_trans depth le⟩

/-- The tree of an accepted formula has finite literals, one for each number token. -/
theorem Accepted.literals {limit : Nat} {ts : List Token} {e : Expr} (h : Accepted limit ts e) :
    e.Literals fun x => x.isFinite = true ∧ Token.number x ∈ ts := by
  obtain ⟨ps, rfl, derives, adm⟩ := h
  exact derives.literals.2 fun x m hx => ⟨adm.numbers x m hx, List.mem_map.2 ⟨_, hx, rfl⟩⟩

end UnitCalc.Formula
