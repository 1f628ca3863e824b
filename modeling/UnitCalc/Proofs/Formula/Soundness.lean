import UnitCalc.Proofs.Formula.Grammar
import UnitCalc.Proofs.Formula.Steps

/-!
# `Proofs.Formula.Soundness` — what is read is derived

Every rule reads its part of the grammar if the rules it uses do: one lemma for each rule, put together
from the rules for the small steps. By induction on the budget, so does every run (`ensures_within`).

The loops of sums and products keep a derivation of what is grouped so far, and each turn extends it by
an operator and an operand (`ensures_chain`). A name and a call are read by two rules each; what the
inner rule relies on is `Rule.Ready`, and what the outer one has passed already is `Rule.passed`.
-/

namespace UnitCalc.Formula

/-! ## What a rule has read -/

/-- The tokens `ts` begin with an admissible part that has the tree `e`, and go on with `us`. -/
def Begins (limit : Nat) (p : Part) (n : Nat) (ts : List Token) (e : Expr) (us : List Token) : Prop :=
  ∃ ps : List Placed, ts = ps.map Prod.fst ++ us ∧ Derives p n ps e ∧ Admissible limit ps e

variable {limit : Nat}

namespace Parser

/-- A chain goes on from the operands that are already grouped into `left`. -/
theorem ensures_chain {operator? : Token → Option BinOp} {operand : Parser Expr} {p q : Part}
    {n : Nat} (hn : n ≤ limit) (stop : operator? .stop = none)
    (number : ∀ x, operator? (.number x) = none)
    (next : ∀ ts, Ensures operand n ts (Begins limit q n ts))
    (join : ∀ {ps t op qs l r}, Derives p n ps l → operator? t = some op → Derives q n qs r →
      Derives p n (ps ++ (t, n) :: qs) (.binary op l r))
    (turns : Nat) {ps : List Placed} {left : Expr} (derives : Derives p n ps left)
    (adm : Admissible limit ps left) (ts : List Token) :
    Ensures (chain limit operator? operand turns left) n ts
      (Begins limit p n (ps.map Prod.fst ++ ts)) := by
  induction turns generalizing ps left ts with
  | zero => exact ensures_done ⟨ps, rfl, derives, adm⟩
  | succ turns ih =>
    refine ensures_current ?_
    split
    · exact ensures_done ⟨ps, rfl, derives, adm⟩
    · next op found =>
      generalize eq : ts.headD .stop = t at found
      have no_stop : t ≠ .stop := by
        rintro rfl
        rw [stop] at found
        cases found
      have no_number : ∀ x, t ≠ .number x := by
        rintro x rfl
        rw [number] at found
        cases found
      obtain ⟨ts, rfl⟩ := exists_tail eq no_stop
      refine ensures_advance (ensures_bind (next ts) ?_)
      rintro right us ⟨qs, rfl, derives', adm'⟩
      refine ensures_node_bind ?_
      intro depth
      -- the grouped operands with this one are the left operand of the next turn
      have grouped := ih (join derives found derives')
        (Admissible.binary hn no_number adm adm' depth) us
      simpa using grouped

/-- The tokens begin with a list of admissible expressions, put together by `join`. -/
def BeginsAll (limit n : Nat) (join : List (List Placed) → List Placed) (ts : List Token)
    (es : List Expr) (us : List Token) : Prop :=
  ∃ args : List (List Placed × Expr), es = args.map Prod.snd
    ∧ ts = (join (args.map Prod.fst)).map Prod.fst ++ us
    ∧ ∀ a ∈ args, Derives .expression n a.1 a.2 ∧ Admissible limit a.1 a.2

section Arguments

variable {argument : Parser Expr} {n : Nat}

/-- The arguments after the first one are expressions with a comma before each. -/
theorem ensures_moreArguments (next : ∀ ts, Ensures argument n ts (Begins limit .expression n ts))
    (turns : Nat) (ts : List Token) :
    Ensures (moreArguments argument turns) n ts
      (BeginsAll limit n (·.flatMap ((.comma, n) :: ·)) ts) := by
  induction turns generalizing ts with
  | zero => exact ensures_done ⟨[], rfl, rfl, List.forall_mem_nil _⟩
  | succ turns ih =>
    refine ensures_current ?_
    split
    · next comma =>
      obtain ⟨ts, rfl⟩ := exists_tail comma (by simp)
      refine ensures_advance (ensures_bind (next ts) ?_)
      rintro e us ⟨ps, rfl, first⟩
      refine ensures_bind (ih us) ?_
      rintro es vs ⟨args, rfl, rfl, others⟩
      exact ensures_done ⟨(ps, e) :: args, rfl, by simp, List.forall_mem_cons.2 ⟨first, others⟩⟩
    · exact ensures_done ⟨[], rfl, rfl, List.forall_mem_nil _⟩

/-- The arguments of a call are expressions with commas between them. -/
theorem ensures_arguments (next : ∀ ts, Ensures argument n ts (Begins limit .expression n ts))
    (ts : List Token) : Ensures (arguments argument) n ts (BeginsAll limit n (separated n) ts) := by
  refine ensures_current ?_
  split
  · exact ensures_done ⟨[], rfl, rfl, List.forall_mem_nil _⟩
  · refine ensures_bind (next ts) ?_
    rintro e us ⟨ps, rfl, first⟩
    refine ensures_remaining (ensures_bind (ensures_moreArguments next _ us) ?_)
    rintro es vs ⟨args, rfl, rfl, others⟩
    refine ensures_done ⟨(ps, e) :: args, rfl, ?_, List.forall_mem_cons.2 ⟨first, others⟩⟩
    rw [List.map_cons, separated_cons, List.map_append, List.append_assoc]

end Arguments

end Parser

/-! ## Every formula that is read is derived -/

namespace Rule

/-- The part of the grammar that a rule reads. -/
def part : Rule → Part
  | expression => .expression
  | additive => .additive
  | multiplicative => .multiplicative
  | unary => .unary
  | power => .power
  | primary | name _ | call _ _ => .primary

/-- The tokens of its part that a rule finds passed already. -/
def passed : Rule → List Token
  | call f _ => [.name f.name]
  | _ => []

/-- What a rule that is used inside another one has been promised about the current token. -/
def Ready : Rule → List Token → Prop
  | name text, ts => ts.headD .stop = .name text
  | call _ _, ts => ts.headD .stop = .openParen
  | _, _ => True

open Formula.Parser

variable {use : Rule → Parser Expr} {n : Nat} {ts : List Token}

/-- The rules that a rule uses read their parts of the grammar. -/
def Sound (limit : Nat) (use : Rule → Parser Expr) : Prop :=
  ∀ rule n ts, n ≤ limit → Ready rule ts →
    Ensures (use rule) n ts (Begins limit rule.part n (rule.passed ++ ts))

theorem ensures_expression (sound : 1 ≤ limit → Sound limit use) :
    Ensures (step limit use expression) n ts (Begins limit .expression n ts) := by
  refine ensures_nested fun within =>
    ensures_mono (sound (by omega) additive _ ts within trivial) ?_
  rintro e us ⟨ps, rfl, derives, adm⟩
  exact ⟨ps, rfl, .expression derives, adm⟩

theorem ensures_additive (sound : Sound limit use) (hn : n ≤ limit) :
    Ensures (step limit use additive) n ts (Begins limit .additive n ts) := by
  refine ensures_bind (sound multiplicative n ts hn trivial) ?_
  rintro left us ⟨ps, rfl, derives, adm⟩
  exact ensures_remaining (ensures_chain hn rfl (fun _ => rfl)
    (fun ts => sound multiplicative n ts hn trivial) .sum _ (.additive derives) adm us)

theorem ensures_multiplicative (sound : Sound limit use) (hn : n ≤ limit) :
    Ensures (step limit use multiplicative) n ts (Begins limit .multiplicative n ts) := by
  refine ensures_bind (sound unary n ts hn trivial) ?_
  rintro left us ⟨ps, rfl, derives, adm⟩
  exact ensures_remaining (ensures_chain hn rfl (fun _ => rfl) (fun ts => sound unary n ts hn trivial)
    .product _ (.multiplicative derives) adm us)

theorem ensures_unary (sound : Sound limit use) (hn : n ≤ limit) :
    Ensures (step limit use unary) n ts (Begins limit .unary n ts) := by
  refine ensures_current ?_
  split
  · next minus =>
    obtain ⟨ts, rfl⟩ := exists_tail minus (by simp)
    refine ensures_advance (ensures_bind (ensures_nested fun within => sound unary _ ts within trivial) ?_)
    rintro e us ⟨ps, rfl, derives, adm⟩
    exact ensures_node fun depth => ⟨_, rfl, .negation derives, adm.neg hn depth⟩
  · refine ensures_mono (sound power n ts hn trivial) ?_
    rintro e us ⟨ps, rfl, derives, adm⟩
    exact ⟨ps, rfl, .unary derives, adm⟩

theorem ensures_power (sound : Sound limit use) (hn : n ≤ limit) :
    Ensures (step limit use power) n ts (Begins limit .power n ts) := by
  refine ensures_bind (sound primary n ts hn trivial) ?_
  rintro base us ⟨ps, rfl, derives, adm⟩
  refine ensures_current ?_
  split
  · next caret =>
    obtain ⟨us, rfl⟩ := exists_tail caret (by simp)
    refine ensures_advance (ensures_bind (ensures_nested fun within => sound unary _ us within trivial) ?_)
    rintro exponent vs ⟨qs, rfl, derives', adm'⟩
    refine ensures_node fun depth => ⟨ps ++ (.caret, n) :: qs, by simp, .raised derives derives', ?_⟩
    exact .binary hn (by simp) adm adm' depth
  · exact ensures_done ⟨ps, rfl, .power derives, adm⟩

theorem ensures_primary (limit_pos : 1 ≤ limit) (sound : Sound limit use) (hn : n ≤ limit) :
    Ensures (step limit use primary) n ts (Begins limit .primary n ts) := by
  refine ensures_current ?_
  cases ts with
  | nil => exact ensures_fail
  | cons t ts =>
    rw [List.headD_cons]
    cases t with
    | number x =>
      dsimp only
      split
      · next finite =>
        have only : ∀ y, Token.number x = .number y → y.isFinite = true := by
          rintro y ⟨⟩
          exact finite
        exact ensures_advance (ensures_done ⟨[(.number x, n)], rfl, .num x,
          .leaf limit_pos hn only Expr.callsAccepted_num rfl⟩)
      · exact ensures_fail
    | name text => exact sound (name text) n _ hn rfl
    | openParen =>
      refine ensures_advance (ensures_bind (sound expression n ts hn trivial) ?_)
      rintro e us ⟨ps, rfl, derives, adm⟩
      refine ensures_closeParen ?_
      rintro vs rfl
      exact ensures_done ⟨_, by simp, .group derives, adm.group hn⟩
    | _ => exact ensures_fail

theorem ensures_name (limit_pos : 1 ≤ limit) (sound : Sound limit use) (hn : n ≤ limit) {text : String}
    (ready : Ready (name text) ts) :
    Ensures (step limit use (name text)) n ts (Begins limit .primary n ts) := by
  obtain ⟨ts, rfl⟩ := exists_tail ready (by simp)
  rw [step]
  split
  · next v found =>
    obtain rfl := Var.name_of_ofName? found
    exact ensures_advance (ensures_done ⟨[_], rfl, .var v,
      .leaf limit_pos hn (by simp) Expr.callsAccepted_var rfl⟩)
  · next c _ found =>
    obtain rfl := Const.key_of_ofName? found
    exact ensures_advance (ensures_done ⟨[_], rfl, .const c,
      .leaf limit_pos hn (by simp) Expr.callsAccepted_const rfl⟩)
  · next f _ _ found =>
    obtain rfl := Func.name_of_ofName? found
    -- the name has been passed when the call is read, so its part begins before the tokens left
    refine ensures_position fun start => ensures_advance (ensures_current ?_)
    split
    · next opened => exact sound (call f start) n ts hn opened
    · exact ensures_fail
  · exact ensures_fail

theorem ensures_call (sound : Sound limit use) (hn : n ≤ limit) {f : Func} {start : Nat}
    (ready : Ready (call f start) ts) :
    Ensures (step limit use (call f start)) n ts (Begins limit .primary n (.name f.name :: ts)) := by
  obtain ⟨ts, rfl⟩ := exists_tail ready (by simp)
  refine ensures_advance (ensures_bind
    (ensures_arguments (fun us => sound expression n us hn trivial) ts) ?_)
  rintro es us ⟨args, rfl, rfl, each⟩
  refine ensures_closeParen ?_
  rintro vs rfl
  split
  · next accepted =>
    rw [List.length_map] at accepted
    refine ensures_node fun depth => ⟨_, by simp, .call f fun a ha => (each a ha).1, ?_⟩
    exact .call hn (fun a ha => (each a ha).2) accepted depth
  · exact ensures_failAt

/-- **Whatever a rule reads is derived by its part of the grammar**, and is admissible. -/
theorem ensures_within (limit_pos : 1 ≤ limit) (budget : Nat) : Sound limit (within limit budget) := by
  induction budget with
  | zero => exact fun _ _ _ _ _ => ensures_exhausted
  | succ budget ih =>
    intro rule n ts hn ready
    cases rule with
    | expression => exact ensures_expression fun _ => ih
    | additive => exact ensures_additive ih hn
    | multiplicative => exact ensures_multiplicative ih hn
    | unary => exact ensures_unary ih hn
    | power => exact ensures_power ih hn
    | primary => exact ensures_primary limit_pos ih hn
    | name text => exact ensures_name limit_pos ih hn ready
    | call f start => exact ensures_call ih hn ready

end Rule

end UnitCalc.Formula
