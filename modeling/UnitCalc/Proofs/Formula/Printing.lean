import UnitCalc.Formula.Printer
import UnitCalc.Proofs.Formula.Normal
import UnitCalc.Proofs.Formula.Reading

/-!
# `Proofs.Formula.Printing` — a written tree parses back

The text of a tree is a formula, and its tree is the normal form of the tree that was written
(`parseUpTo_text`). What is shown of a piece of text is that it `Spells` a part of the grammar: its words
derive the part, whatever delimited text follows.

The limit on nesting needs an amortised argument. An operand in parentheses under a negation or in an
exponent lies two levels further in, but stands for one level of the tree only. It stands in parentheses
because it binds loosely, and a tree that binds loosely is a sum, a product or a difference of higher
trees, which stand at most one level in. So such a tree has a level to spare: `slack` counts it, and
`spells_render` carries it through the tree.
-/

namespace UnitCalc.Formula

/-! ## Parts by binding strength -/

/-- The part that a tree of a binding strength is written as. -/
def Part.ofStrength : Nat → Part
  | 0 | 1 => .additive
  | 2 => .multiplicative
  | 3 => .unary
  | 4 => .power
  | _ => .primary

/-- What binds more tightly may stand where looser binding is enough. -/
theorem Derives.loosen {least strength n : Nat} {ps : List Placed} {e : Expr} (le : least ≤ strength)
    (h : Derives (Part.ofStrength strength) n ps e) : Derives (Part.ofStrength least) n ps e := by
  induction le with
  | refl => exact h
  | @step strength _ ih =>
    refine ih ?_
    match strength, h with
    | 0, h => exact h
    | 1, h => exact .additive h
    | 2, h => exact .multiplicative h
    | 3, h => exact .unary h
    | 4, h => exact .power h
    | _ + 5, h => exact h

/-! ## Pieces of text -/

/-- Before any delimited text, the characters are a part with the tree `e` that keeps within a limit. -/
def Spells (p : Part) (n limit : Nat) (cs : List Char) (e : Expr) : Prop :=
  ∃ ps : List Placed, Derives p n ps e ∧ (∀ t ∈ ps, t.2 ≤ limit) ∧
    ∀ rest, Delimited rest → wordsOf (cs ++ rest) = ps.map Prod.fst ++ wordsOf rest

namespace Spells

variable {n limit : Nat} {cs ds : List Char} {e l r : Expr}

theorem loosen {least strength : Nat} (le : least ≤ strength)
    (h : Spells (.ofStrength strength) n limit cs e) : Spells (.ofStrength least) n limit cs e := by
  obtain ⟨ps, derives, levels, spelled⟩ := h
  exact ⟨ps, derives.loosen le, levels, spelled⟩

theorem expression (h : Spells .additive (n + 1) limit cs e) : Spells .expression n limit cs e := by
  obtain ⟨ps, derives, levels, spelled⟩ := h
  exact ⟨ps, .expression derives, levels, spelled⟩

/-- A level of the part keeps within the limit. -/
theorem level_le {p : Part} (h : Spells p n limit cs e) : n ≤ limit := by
  obtain ⟨ps, derives, levels, -⟩ := h
  obtain ⟨t, ht, level⟩ := derives.exists_level
  exact Nat.le_trans level (levels t ht)

theorem wordsOf_minus (rest : List Char) : wordsOf ('-' :: rest) = .minus :: wordsOf rest :=
  wordsOf_single (by decide) (by decide) (by decide)

theorem wordsOf_openParen (rest : List Char) : wordsOf ('(' :: rest) = .openParen :: wordsOf rest :=
  wordsOf_single (by decide) (by decide) (by decide)

theorem wordsOf_closeParen (rest : List Char) : wordsOf (')' :: rest) = .closeParen :: wordsOf rest :=
  wordsOf_single (by decide) (by decide) (by decide)

/-- A literal that is not negative. -/
theorem num {x : Float} (hn : n ≤ limit) (finite : x.isFinite = true)
    (sign : Double.isNegative x = false) : Spells .primary n limit (Double.chars x) (.num x) := by
  obtain ⟨v, plain, read⟩ := Double.chars_read_back finite sign
  refine ⟨[(.number x, n)], .num x, by simpa using hn, ?_⟩
  intro rest delimited
  obtain ⟨d, value, spelled⟩ := wordsOf_plain plain delimited
  rw [spelled, read d value]
  rfl

theorem negation (hn : n ≤ limit) (h : Spells .unary (n + 1) limit cs e) :
    Spells .unary n limit ('-' :: cs) (.neg e) := by
  obtain ⟨ps, derives, levels, spelled⟩ := h
  refine ⟨(.minus, n) :: ps, .negation derives, List.forall_mem_cons.2 ⟨hn, levels⟩, ?_⟩
  intro rest delimited
  rw [List.cons_append, wordsOf_minus, spelled rest delimited, List.map_cons, List.cons_append]

theorem parenthesized (hn : n ≤ limit) (h : Spells .expression n limit cs e) :
    Spells .primary n limit ('(' :: cs ++ [')']) e := by
  obtain ⟨ps, derives, levels, spelled⟩ := h
  refine ⟨_, .group derives, ?_, ?_⟩
  · exact List.forall_mem_append.2 ⟨List.forall_mem_cons.2 ⟨hn, levels⟩,
      List.forall_mem_cons.2 ⟨hn, List.forall_mem_nil _⟩⟩
  · intro rest delimited
    have inside := spelled (')' :: rest) (delimited_cons (by decide) (by decide))
    rw [List.cons_append, List.cons_append, List.append_assoc, List.singleton_append, wordsOf_openParen,
      inside, wordsOf_closeParen]
    simp

/-- An operand in its position: in parentheses when it binds too loosely. -/
theorem group {least : Nat} {operand : Expr} (hl : least ≤ 5)
    (loose : operand.precedence < least → Spells .additive (n + 1) limit cs e)
    (tight : least ≤ operand.precedence → Spells (.ofStrength operand.precedence) n limit cs e) :
    Spells (.ofStrength least) n limit (operand.group least cs) e := by
  rw [Expr.group]
  split
  · next low =>
    have inside := loose low
    -- parentheses make an atom of it, which may stand in any position
    have atom : Spells (.ofStrength 5) n limit ('(' :: cs ++ [')']) e :=
      parenthesized (Nat.le_of_succ_le inside.level_le) inside.expression
    exact atom.loosen hl
  · next high => exact (tight (Nat.le_of_not_lt high)).loosen (Nat.le_of_not_lt high)

/-- An operator with a blank on either side. -/
theorem operator {p q s : Part} {m : Nat} {op : BinOp} {t : Token} {c : Expr}
    (sign : ∀ rest, wordsOf (' ' :: op.sign :: ' ' :: rest) = t :: wordsOf rest)
    (join : ∀ {ps qs}, Derives p n ps l → Derives q m qs r → Derives s n (ps ++ (t, n) :: qs) c)
    (hl : Spells p n limit cs l) (hr : Spells q m limit ds r) :
    Spells s n limit (cs ++ [' ', op.sign, ' '] ++ ds) c := by
  have hn := hl.level_le
  obtain ⟨ps, derives, levels, spelled⟩ := hl
  obtain ⟨qs, derives', levels', spelled'⟩ := hr
  refine ⟨_, join derives derives', ?_, ?_⟩
  · exact List.forall_mem_append.2 ⟨levels, List.forall_mem_cons.2 ⟨hn, levels'⟩⟩
  · intro rest delimited
    have first := spelled (' ' :: op.sign :: ' ' :: (ds ++ rest)) (delimited_cons (by decide) (by decide))
    rw [sign, spelled' rest delimited] at first
    simpa using first

/-- A name stands for a leaf. -/
theorem name {s key : String} (hn : n ≤ limit) (h : isName s = true) (same : lowered s = key)
    (derives : Derives .primary n [(.name key, n)] e) : Spells .primary n limit s.toList e := by
  refine ⟨_, derives, by simpa using hn, ?_⟩
  intro rest delimited
  rw [wordsOf_string h delimited, same]
  rfl

/-- The arguments of a call with commas and blanks between them. -/
theorem arguments {args : List Expr} (hn : n ≤ limit)
    (each : ∀ e ∈ args, Spells .expression n limit e.render e.normal) :
    ∃ as : List (List Placed × Expr), as.map Prod.snd = args.map Expr.normal
      ∧ (∀ a ∈ as, Derives .expression n a.1 a.2)
      ∧ (∀ t ∈ separated n (as.map Prod.fst), t.2 ≤ limit)
      ∧ ∀ rest, Delimited rest → wordsOf (Expr.renderAll args ++ rest)
        = (separated n (as.map Prod.fst)).map Prod.fst ++ wordsOf rest := by
  induction args with
  | nil => exact ⟨[], rfl, List.forall_mem_nil _, List.forall_mem_nil _, fun rest _ => rfl⟩
  | cons e args ih =>
    obtain ⟨ps, derives, levels, spelled⟩ := each e List.mem_cons_self
    cases args with
    | nil =>
      refine ⟨[(ps, e.normal)], rfl, by simpa using derives, by simpa [separated_cons] using levels, ?_⟩
      intro rest delimited
      rw [Expr.renderAll, spelled rest delimited]
      simp [separated_cons]
    | cons d args =>
      obtain ⟨as, trees, derives', levels', spelled'⟩ := ih fun c hc => each c (List.mem_cons_of_mem e hc)
      obtain ⟨a, as, rfl⟩ : ∃ a bs, as = a :: bs := by
        cases as with
        | nil => cases trees
        | cons a bs => exact ⟨a, bs, rfl⟩
      have split : separated n (((ps, e.normal) :: a :: as).map Prod.fst)
          = ps ++ (.comma, n) :: separated n ((a :: as).map Prod.fst) := by
        simp [separated_cons]
      refine ⟨(ps, e.normal) :: a :: as, by rw [List.map_cons, trees]; rfl,
        List.forall_mem_cons.2 ⟨derives, derives'⟩, ?_, ?_⟩
      · rw [split]
        exact List.forall_mem_append.2 ⟨levels, List.forall_mem_cons.2 ⟨hn, levels'⟩⟩
      · intro rest delimited
        have comma : ∀ cs, wordsOf (',' :: ' ' :: cs) = .comma :: wordsOf cs := by
          intro cs
          rw [wordsOf_single (by decide) (by decide) (by decide), wordsOf_blank (by decide)]
          rfl
        have first := spelled (',' :: ' ' :: (Expr.renderAll (d :: args) ++ rest))
          (delimited_cons (by decide) (by decide))
        rw [comma, spelled' rest delimited] at first
        rw [split, Expr.renderAll]
        · simpa using first
        · simp

theorem call {f : Func} {args : List Expr} (hn : n ≤ limit)
    (each : ∀ e ∈ args, Spells .expression n limit e.render e.normal) :
    Spells .primary n limit (f.name.toList ++ '(' :: Expr.renderAll args ++ [')'])
      (.call f (args.map Expr.normal)) := by
  obtain ⟨as, trees, derives, levels, spelled⟩ := arguments hn each
  rw [← trees]
  refine ⟨_, .call f derives, ?_, ?_⟩
  · exact List.forall_mem_append.2 ⟨List.forall_mem_cons.2 ⟨hn, List.forall_mem_cons.2 ⟨hn, levels⟩⟩,
      List.forall_mem_cons.2 ⟨hn, List.forall_mem_nil _⟩⟩
  · intro rest delimited
    have known : isName f.name = true ∧ lowered f.name = f.name := by cases f <;> decide
    have inside := spelled (')' :: rest) (delimited_cons (by decide) (by decide))
    have front : wordsOf (f.name.toList ++ '(' :: (Expr.renderAll args ++ ')' :: rest)) = _ :=
      wordsOf_string known.1 (delimited_cons (by decide) (by decide))
    rw [wordsOf_openParen, inside, wordsOf_closeParen, known.2] at front
    simpa using front

end Spells

/-! ## Written trees -/

/-- The levels that a tree has to spare: its words lie that many levels less deep than it is high. -/
def slack (e : Expr) : Nat :=
  if e.precedence < negationPrecedence then 2 else 1

theorem slack_pos (e : Expr) : 1 ≤ slack e := by
  rw [slack]
  split <;> omega

theorem precedence_pos (e : Expr) : 1 ≤ e.precedence := by
  cases e with
  | num x =>
    rw [Expr.precedence]
    split <;> decide
  | binary op =>
    rw [Expr.precedence]
    cases op <;> decide
  | _ => exact Nat.le_of_ble_eq_true rfl

/-- An operand that binds tightly enough is written as it is. -/
theorem Expr.group_of_le {e : Expr} {least : Nat} {cs : List Char} (h : least ≤ e.precedence) :
    e.group least cs = cs :=
  if_neg (Nat.not_lt.2 h)

/-- The word of an operator. -/
def signToken : BinOp → Token
  | .add => .plus
  | .sub => .minus
  | .mul => .times
  | .div => .slash
  | .pow => .caret

theorem wordsOf_sign (op : BinOp) (rest : List Char) :
    wordsOf (' ' :: op.sign :: ' ' :: rest) = signToken op :: wordsOf rest := by
  cases op <;>
    rw [wordsOf_blank (by decide), wordsOf_single (by decide) (by decide) (by decide),
      wordsOf_blank (by decide)] <;> rfl

/-- An operand in its position, where a position that asks for less than a power has a level to
    spare. -/
theorem spells_operand {o : Expr} {least n limit : Nat} (hl : least ≤ 5)
    (ih : ∀ {n}, n + o.normal.height ≤ limit + slack o →
      Spells (.ofStrength o.precedence) n limit o.render o.normal)
    (room : n + o.normal.height ≤ limit + if least ≤ negationPrecedence then 1 else 0) :
    Spells (.ofStrength least) n limit (o.group least o.render) o.normal := by
  have pos := slack_pos o
  refine Spells.group hl (fun low => ?_) fun high => ih (by split at room <;> omega)
  refine Spells.loosen (precedence_pos o) (ih ?_)
  -- the parentheses take a level: where the position has taken one already, the operand binds so
  -- loosely that it has two to spare
  split at room
  · next loose =>
    have spare : slack o = 2 := if_pos (Nat.lt_of_lt_of_le low loose)
    omega
  · omega

/-- **A tree spells its normal form** at its own binding strength. -/
theorem spells_render {e : Expr} (finite : e.Literals fun x => x.isFinite = true) {n limit : Nat}
    (h : n + e.normal.height ≤ limit + slack e) :
    Spells (.ofStrength e.precedence) n limit e.render e.normal := by
  induction e generalizing n with
  | num x =>
    have finite := Expr.literals_num.1 finite
    cases sign : Double.isNegative x with
    | true =>
      -- written as a negation, so it binds like one and its normal form is one level higher
      have strength : (Expr.num x).precedence = 3 := by simp [Expr.precedence, sign, negationPrecedence]
      have spare : slack (.num x) = 1 := by rw [slack, strength]; rfl
      rw [Expr.normal_num_of_isNegative sign] at h ⊢
      rw [strength, Expr.render, Double.chars_of_isNegative finite sign]
      simp only [Expr.height, spare] at h
      have literal : Spells (.ofStrength 5) (n + 1) limit (Double.chars x.abs) (.num x.abs) :=
        Spells.num (by omega) ((Double.isFinite_abs x).trans finite) (Double.isNegative_abs x)
      have operand : Spells (.ofStrength 3) (n + 1) limit (Double.chars x.abs) (.num x.abs) :=
        literal.loosen (by decide)
      exact Spells.negation (by omega) operand
    | false =>
      have strength : (Expr.num x).precedence = 5 := by simp [Expr.precedence, sign, atomPrecedence]
      have spare : slack (.num x) = 1 := by rw [slack, strength]; rfl
      rw [Expr.normal_num sign] at h ⊢
      rw [strength]
      simp only [Expr.height, spare] at h
      exact Spells.num (by omega) finite sign
  | var v =>
    have known : isName v.name = true ∧ lowered v.name = v.name := by cases v <;> decide
    have hn : n + 1 ≤ limit + 1 := h
    exact Spells.name (by omega) known.1 known.2 (.var v)
  | const c =>
    have known : isName c.name = true ∧ lowered c.name = c.key := by cases c <;> decide
    have hn : n + 1 ≤ limit + 1 := h
    exact Spells.name (by omega) known.1 known.2 (.const c)
  | neg operand ih =>
    have room : n + (operand.normal.height + 1) ≤ limit + 1 := h
    have inside : Spells (.ofStrength negationPrecedence) (n + 1) limit
        (operand.group negationPrecedence operand.render) operand.normal :=
      spells_operand (by decide) (ih (Expr.literals_neg.1 finite)) (by rw [if_pos (by decide)]; omega)
    exact Spells.negation (by omega) inside
  | binary op l r ihl ihr =>
    obtain ⟨fl, fr⟩ := Expr.literals_binary.1 finite
    cases op with
    | add | sub =>
      have room : n + (max l.normal.height r.normal.height + 1) ≤ limit + 2 := h
      have left : Spells (.ofStrength 1) n limit (l.group 1 l.render) l.normal :=
        spells_operand (by decide) (ihl fl) (by rw [if_pos (by decide)]; omega)
      have right : Spells (.ofStrength 2) n limit (r.group 2 r.render) r.normal :=
        spells_operand (by decide) (ihr fr) (by rw [if_pos (by decide)]; omega)
      exact Spells.operator (wordsOf_sign _) (fun hl hr => .sum hl rfl hr) left right
    | mul | div =>
      have room : n + (max l.normal.height r.normal.height + 1) ≤ limit + 2 := h
      have left : Spells (.ofStrength 2) n limit (l.group 2 l.render) l.normal :=
        spells_operand (by decide) (ihl fl) (by rw [if_pos (by decide)]; omega)
      have right : Spells (.ofStrength 3) n limit (r.group 3 r.render) r.normal :=
        spells_operand (by decide) (ihr fr) (by rw [if_pos (by decide)]; omega)
      exact Spells.operator (wordsOf_sign _) (fun hl hr => .product hl rfl hr) left right
    | pow =>
      -- the base is asked for an atom and stays on its level; the exponent lies one level further in
      have room : n + (max l.normal.height r.normal.height + 1) ≤ limit + 1 := h
      have left : Spells (.ofStrength 5) n limit (l.group 5 l.render) l.normal :=
        spells_operand (by decide) (ihl fl) (by rw [if_neg (by decide)]; omega)
      have right : Spells (.ofStrength 3) (n + 1) limit (r.group 3 r.render) r.normal :=
        spells_operand (by decide) (ihr fr) (by rw [if_pos (by decide)]; omega)
      exact Spells.operator (wordsOf_sign _) (fun hl hr => .raised hl hr) left right
  | call f args ih =>
    have height : (Expr.call f args).normal.height = Expr.heightAll (args.map Expr.normal) + 1 := by
      rw [← Expr.normalAll_eq_map]
      rfl
    have room : n + (Expr.heightAll (args.map Expr.normal) + 1) ≤ limit + 1 := height ▸ h
    rw [Expr.normal, Expr.normalAll_eq_map]
    -- the level that an argument adds is the level that it is lower
    refine Spells.call (by omega) ?_
    intro e he
    have lower := Expr.heightAll_le.1 Nat.le.refl _ (List.mem_map_of_mem (f := Expr.normal) he)
    have pos := slack_pos e
    exact Spells.expression (Spells.loosen (precedence_pos e)
      (ih e he (Expr.literals_call.1 finite e he) (by omega)))

/-- The text of a tree is a formula, within every limit that its normal form keeps. -/
theorem accepted_text {e : Expr} (finite : e.Literals fun x => x.isFinite = true)
    (calls : e.CallsAccepted) {limit : Nat} (h : e.normal.depth ≤ limit) :
    Accepted limit (words e.text) e.normal := by
  have pos := slack_pos e
  have room : 1 + e.normal.height ≤ limit + slack e := by
    rw [Expr.depth_eq_height] at h
    omega
  obtain ⟨ps, derives, levels, spelled⟩ :=
    (Spells.loosen (precedence_pos e) (spells_render finite room)).expression
  have tokens := spelled [] delimited_nil
  rw [List.append_nil, wordsOf_nil, List.append_nil] at tokens
  refine ⟨ps, ?_, derives, levels, ?_, Expr.callsAccepted_normal calls, h⟩
  · rw [words_eq, Expr.text, String.toList_ofList, tokens]
  · exact derives.literals.1 fun x hx => (Expr.literals_normal finite x hx).1

/-- A text with the words of a written tree parses to the normal form of the tree. -/
theorem parseUpTo_of_words {s : String} {e : Expr} (same : words s = words e.text)
    (finite : e.Literals fun x => x.isFinite = true) (calls : e.CallsAccepted) {limit : Nat}
    (h : e.normal.depth ≤ limit) : parseUpTo limit s = .ok e.normal := by
  have accepted := accepted_text finite calls h
  rw [← same] at accepted
  exact parseUpTo_of_accepted accepted

/-- The literals of a tree that was parsed are finite and not negative. -/
theorem literals_of_parseUpTo {limit : Nat} {s : String} {e : Expr} (h : parseUpTo limit s = .ok e) :
    e.Literals fun x => x.isFinite = true ∧ Double.isNegative x = false := by
  intro x hx
  obtain ⟨finite, word⟩ := (accepted_of_parseUpTo h).literals x hx
  exact ⟨finite, isNegative_of_mem_words word⟩

/-- **A written tree parses back.** The text of a tree with finite literals and accepted calls parses to
    its normal form, within every limit that the normal form keeps, and the normal form means the same.
    A tree without negative literals is its own normal form; every tree that was parsed is such a tree. -/
theorem parseUpTo_text :
    (∀ e : Expr, (e.Literals fun x => x.isFinite = true) → e.CallsAccepted →
      (∀ limit, e.normal.depth ≤ limit → parseUpTo limit e.text = .ok e.normal)
        ∧ ((e.Literals fun x => Double.isNegative x = false) →
          ∀ limit, e.depth ≤ limit → parseUpTo limit e.text = .ok e)
        ∧ ∀ settings b, e.normal.depth ≤ settings.maxDepth →
          e.normal.eval settings b = e.eval settings b)
      ∧ ∀ limit s e, parseUpTo limit s = .ok e →
        e.depth ≤ limit ∧ ∀ limit', e.depth ≤ limit' → parseUpTo limit' e.text = .ok e := by
  have back : ∀ e : Expr, (e.Literals fun x => x.isFinite = true) → e.CallsAccepted →
      (e.Literals fun x => Double.isNegative x = false) →
      ∀ limit, e.depth ≤ limit → parseUpTo limit e.text = .ok e := by
    intro e finite calls positive limit h
    have same := Expr.normal_eq_self positive
    have read := accepted_text finite calls (le_of_eq_of_le (congrArg Expr.depth same) h)
    rw [same] at read
    exact parseUpTo_of_accepted read
  refine ⟨fun e finite calls => ⟨?_, back e finite calls, ?_⟩, ?_⟩
  · intro limit h
    exact parseUpTo_of_accepted (accepted_text finite calls h)
  · intro settings b h
    exact Expr.eval_normal b e h
  · intro limit s e parsed
    obtain ⟨ps, -, -, adm⟩ := accepted_of_parseUpTo parsed
    have literals := literals_of_parseUpTo parsed
    exact ⟨adm.depth, back e (fun x hx => (literals x hx).1) adm.calls fun x hx => (literals x hx).2⟩

/-- A negative base is written in parentheses, and read as a negation. -/
theorem parseUpTo_text_negative_base :
    parseUpTo 3 (Expr.binary .pow (.num (-2)) (.binary .sub (.var .x) (.num 1))).text
        = .ok (.binary .pow (.neg (.num 2)) (.binary .sub (.var .x) (.num 1)))
      ∧ parseUpTo 7 (Expr.var .x).text = .ok (.var .x) := by
  constructor
  · have two : Double.isNegative (-2) = true ∧ (-2 : Float).abs = 2 := by decide
    have one : Double.isNegative 1 = false := by decide
    have normal : (Expr.binary .pow (.num (-2)) (.binary .sub (.var .x) (.num 1))).normal
        = .binary .pow (.neg (.num 2)) (.binary .sub (.var .x) (.num 1)) := by
      simp [Expr.normal, two, one]
    rw [← normal]
    refine (parseUpTo_text.1 _ ?_ ?_).1 3 ?_
    · simp only [Expr.literals_binary, Expr.literals_num, Expr.literals_var, true_and]
      decide
    · simp
    · rw [normal, Expr.depth_eq_height]
      decide
  · refine (parseUpTo_text.2 1 "x" (.var .x) (parseUpTo_of_accepted ?_)).2 7 ?_
    · refine ⟨[(.name "x", 1)], by decide +kernel, ?_, by decide, by simp, by simp, ?_⟩
      · exact .expression (.additive (.multiplicative (.unary (.power (.var .x)))))
      · rw [Expr.depth_eq_height]
        decide
    · rw [Expr.depth_eq_height]
      decide

end UnitCalc.Formula
