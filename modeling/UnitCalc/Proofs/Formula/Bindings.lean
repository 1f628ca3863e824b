import Mathlib.Data.List.Perm.Basic
import UnitCalc.Formula.Bindings

/-!
# `Proofs.Formula.Bindings` — bindings from names in any order

Names and values are kept in a map, and a map has no order. Bindings are made from its entries one after another,
so they could depend on the order in which the entries are visited. What the entries allow as a result is a
relation that mentions no order (`Reading`), and every order gives a result that they allow
(`reading_setNames`).

The entries may allow more than one result. Two names may be no variables, and either of them may be reported; and
two names may be one variable, as `x` and `X` are, so that either of their values may be kept. Entries are
`Unambiguous` without that, and these are exactly the ones that give the same result in every order
(`ofNames_perm`).
-/

namespace UnitCalc.Formula

/-- The variable with a name in either case. -/
def Var.ofAnyCase? (name : String) : Option Var :=
  ofName? (name.map Char.toLower)

namespace Bindings

variable {values values' : List (String × Float)} {b b' : Bindings} {r r' : Except EvalError Bindings}

theorem ext_get (h : ∀ v, b.get v = b'.get v) : b = b' := by
  obtain ⟨x, y, z⟩ := b
  obtain ⟨x', y', z'⟩ := b'
  obtain rfl : x = x' := h .x
  obtain rfl : y = y' := h .y
  obtain rfl : z = z' := h .z
  rfl

/-! ## What the entries allow -/

/-- The variable has a value that an entry gives it, or what it had before when no entry gives it one. -/
def Bound (values : List (String × Float)) (v : Var) (before after : Option Float) : Prop :=
  (∃ p ∈ values, Var.ofAnyCase? p.1 = some v ∧ after = some p.2)
    ∨ (∀ p ∈ values, Var.ofAnyCase? p.1 ≠ some v) ∧ after = before

/-- The results that the entries allow on top of the bindings `b`. -/
inductive Reading (values : List (String × Float)) (b : Bindings) : Except EvalError Bindings → Prop
  | known {b' : Bindings} (all : ∀ p ∈ values, Var.ofAnyCase? p.1 ≠ none)
      (bound : ∀ v, Bound values v (b.get v) (b'.get v)) : Reading values b (.ok b')
  | unknown {p : String × Float} (mem : p ∈ values) (none : Var.ofAnyCase? p.1 = none) :
      Reading values b (.error (.unknownVariable p.1))

theorem setNames_cons_of_none {p : String × Float} (h : Var.ofAnyCase? p.1 = none) :
    b.setNames (p :: values) = .error (.unknownVariable p.1) := by
  rw [Var.ofAnyCase?] at h
  rw [setNames, h]

theorem setNames_cons_of_some {p : String × Float} {v : Var} (h : Var.ofAnyCase? p.1 = some v) :
    b.setNames (p :: values) = (b.set v p.2).setNames values := by
  rw [Var.ofAnyCase?] at h
  rw [setNames, h]

/-- What the first entry sets, a later one may set again. -/
theorem Bound.cons {p : String × Float} {v w : Var} {after : Option Float} (first : Var.ofAnyCase? p.1 = some w)
    (h : Bound values v ((b.set w p.2).get v) after) : Bound (p :: values) v (b.get v) after := by
  rcases h with ⟨q, hq, name, value⟩ | ⟨others, same⟩
  · exact .inl ⟨q, List.mem_cons_of_mem _ hq, name, value⟩
  · rw [get_set] at same
    by_cases hv : v = w
    · rw [if_pos hv] at same
      exact .inl ⟨p, List.mem_cons_self, hv ▸ first, same⟩
    · rw [if_neg hv] at same
      refine .inr ⟨List.forall_mem_cons.2 ⟨fun again => hv ?_, others⟩, same⟩
      exact Option.some.inj (again.symm.trans first)

/-- **Every order gives a result that the entries allow.** -/
theorem reading_setNames (b : Bindings) (values : List (String × Float)) :
    Reading values b (b.setNames values) := by
  induction values generalizing b with
  | nil => exact .known (List.forall_mem_nil _) fun v => .inr ⟨List.forall_mem_nil _, rfl⟩
  | cons p values ih =>
    cases first : Var.ofAnyCase? p.1 with
    | none =>
      rw [setNames_cons_of_none first]
      exact .unknown List.mem_cons_self first
    | some w =>
      rw [setNames_cons_of_some first]
      have rest := ih (b.set w p.2)
      generalize (b.set w p.2).setNames values = r at rest ⊢
      cases rest with
      | known all bound =>
        refine .known (List.forall_mem_cons.2 ⟨?_, all⟩) fun v => (bound v).cons first
        rw [first]
        exact Option.some_ne_none w
      | unknown mem none => exact .unknown (List.mem_cons_of_mem _ mem) none

theorem Bound.perm (order : values.Perm values') {v : Var} {before after : Option Float}
    (h : Bound values v before after) : Bound values' v before after := by
  rcases h with ⟨p, hp, name, value⟩ | ⟨others, same⟩
  · exact .inl ⟨p, order.mem_iff.1 hp, name, value⟩
  · exact .inr ⟨fun p hp => others p (order.mem_iff.2 hp), same⟩

/-- What the entries allow does not depend on their order. -/
theorem Reading.perm (order : values.Perm values') (h : Reading values b r) : Reading values' b r := by
  cases h with
  | known all bound => exact .known (fun p hp => all p (order.mem_iff.2 hp)) fun v => (bound v).perm order
  | unknown mem none => exact .unknown (order.mem_iff.1 mem) none

/-! ## Entries of one meaning -/

/-- At most one name is no variable, and if there is none, names of one variable have one value. -/
structure Unambiguous (values : List (String × Float)) : Prop where
  unknown : ∀ p ∈ values, ∀ q ∈ values, Var.ofAnyCase? p.1 = none → Var.ofAnyCase? q.1 = none → p.1 = q.1
  known : (∀ p ∈ values, Var.ofAnyCase? p.1 ≠ none) →
    ∀ p ∈ values, ∀ q ∈ values, Var.ofAnyCase? p.1 = Var.ofAnyCase? q.1 → p.2 = q.2

/-- A variable that is bound by entries of one meaning has one value. -/
theorem Bound.unique {v : Var} {before after after' : Option Float}
    (one : ∀ p ∈ values, ∀ q ∈ values, Var.ofAnyCase? p.1 = Var.ofAnyCase? q.1 → p.2 = q.2)
    (h : Bound values v before after) (h' : Bound values v before after') : after = after' := by
  rcases h with ⟨p, hp, name, value⟩ | ⟨others, same⟩
  · rcases h' with ⟨q, hq, name', value'⟩ | ⟨others', -⟩
    · rw [value, value', one p hp q hq (name.trans name'.symm)]
    · exact absurd name (others' p hp)
  · rcases h' with ⟨q, hq, name', -⟩ | ⟨-, same'⟩
    · exact absurd name' (others q hq)
    · rw [same, same']

/-- **Entries of one meaning allow one result.** -/
theorem Reading.unique (one : Unambiguous values) (h : Reading values b r) (h' : Reading values b r') :
    r = r' := by
  cases h with
  | known all bound =>
    cases h' with
    | known _ bound' => exact congrArg _ (ext_get fun v => (bound v).unique (one.known all) (bound' v))
    | unknown mem none => exact absurd none (all _ mem)
  | unknown mem none =>
    cases h' with
    | known all _ => exact absurd none (all _ mem)
    | unknown mem' none' => rw [one.unknown _ mem _ mem' none none']

/-- There are bindings exactly when every name is a variable. -/
theorem Reading.exists_ok_iff (h : Reading values b r) :
    (∃ b', r = .ok b') ↔ ∀ p ∈ values, Var.ofAnyCase? p.1 ≠ none := by
  cases h with
  | known all _ => exact iff_of_true ⟨_, rfl⟩ all
  | unknown mem none => exact iff_of_false nofun fun all => all _ mem none

/-! ## Orders of a map -/

/-- Where every name is a variable, the entry that is visited last is kept. -/
theorem setNames_append_singleton {p : String × Float} {v : Var} (last : Var.ofAnyCase? p.1 = some v)
    (all : ∀ q ∈ values, Var.ofAnyCase? q.1 ≠ none) :
    ∃ b', b.setNames (values ++ [p]) = .ok b' ∧ b'.get v = some p.2 := by
  induction values generalizing b with
  | nil =>
    refine ⟨b.set v p.2, setNames_cons_of_some last, ?_⟩
    rw [get_set, if_pos rfl]
  | cons q values ih =>
    obtain ⟨known, rest⟩ := List.forall_mem_cons.1 all
    obtain ⟨w, first⟩ := Option.ne_none_iff_exists'.1 known
    rw [List.cons_append, setNames_cons_of_some first]
    exact ih rest

/-- **Entries that give one result in every order are unambiguous**: any of them may be visited first, or last. -/
theorem Unambiguous.of_orders (same : ∀ values', values.Perm values' → ofNames values = ofNames values') :
    Unambiguous values := by
  have first : ∀ p ∈ values, Var.ofAnyCase? p.1 = none →
      ofNames values = .error (.unknownVariable p.1) := by
    intro p hp none
    obtain ⟨s, t, rfl⟩ := List.append_of_mem hp
    rw [same _ List.perm_middle]
    exact setNames_cons_of_none none
  have last : (∀ p ∈ values, Var.ofAnyCase? p.1 ≠ none) → ∀ p ∈ values, ∀ v, Var.ofAnyCase? p.1 = some v →
      ∃ b, ofNames values = .ok b ∧ b.get v = some p.2 := by
    intro all p hp v name
    obtain ⟨s, t, rfl⟩ := List.append_of_mem hp
    have order : (s ++ p :: t).Perm (s ++ t ++ [p]) :=
      List.perm_middle.trans (List.perm_append_singleton p (s ++ t)).symm
    rw [same _ order]
    exact setNames_append_singleton name fun q hq => all q (order.mem_iff.2 (List.mem_append_left _ hq))
  constructor
  · intro p hp q hq none none'
    have reported := (first p hp none).symm.trans (first q hq none')
    simpa using reported
  · intro all p hp q hq alike
    obtain ⟨v, name⟩ := Option.ne_none_iff_exists'.1 (all p hp)
    obtain ⟨b, bindings, value⟩ := last all p hp v name
    obtain ⟨b', bindings', value'⟩ := last all q hq v (alike ▸ name)
    obtain rfl : b = b' := Except.ok.inj (bindings.symm.trans bindings')
    exact Option.some.inj (value.symm.trans value')

/-- **The order of the entries matters exactly where they are ambiguous.** In every order there are bindings exactly
when all names are variables, and they bind the variables that are named; otherwise one of the other names is
reported. All orders give the same just when at most one name is no variable, and no two names are one variable
with different values. -/
theorem ofNames_perm (values : List (String × Float)) :
    (∀ values', values.Perm values' →
        ((∃ b, ofNames values' = .ok b) ↔ ∀ p ∈ values, Var.ofAnyCase? p.1 ≠ none)
          ∧ (∀ err, ofNames values' = .error err →
            ∃ p ∈ values, Var.ofAnyCase? p.1 = none ∧ err = .unknownVariable p.1)
          ∧ ∀ b, ofNames values' = .ok b → ∀ v, Bound values v none (b.get v))
      ∧ ((∀ values', values.Perm values' → ofNames values = ofNames values') ↔ Unambiguous values) := by
  have allowed : ∀ values', values.Perm values' → Reading values empty (ofNames values') :=
    fun values' order => (reading_setNames empty values').perm order.symm
  constructor
  · intro values' order
    have reading := allowed values' order
    refine ⟨reading.exists_ok_iff, ?_, ?_⟩
    · intro err failed
      rw [failed] at reading
      cases reading with
      | unknown mem none => exact ⟨_, mem, none, rfl⟩
    · intro b bindings v
      rw [bindings] at reading
      cases reading with
      | known _ bound =>
        have unset : empty.get v = none := by cases v <;> rfl
        exact unset ▸ bound v
  · constructor
    · exact Unambiguous.of_orders
    · exact fun one values' order => (allowed values .rfl).unique one (allowed values' order)

/-- A capital `X` and a small `z` are two variables, whichever of them is visited first. -/
theorem ofNames_perm_capital :
    [("X", 2), ("z", 5)].Perm [("z", 5), ("X", (2 : Float))]
      ∧ Unambiguous [("X", 2), ("z", 5)]
      ∧ ofNames [("X", 2), ("z", 5)] = ofNames [("z", 5), ("X", 2)] := by
  have order : [("X", 2), ("z", 5)].Perm [("z", 5), ("X", (2 : Float))] := .swap ..
  have one : Unambiguous [("X", 2), ("z", 5)] := ⟨by decide +kernel, by decide +kernel⟩
  exact ⟨order, one, (ofNames_perm _).2.2 one _ order⟩

/-- A small and a capital `x` in one map are one variable, and its value is the one that is visited last. -/
theorem not_ofNames_perm_bothCases :
    ¬ ∀ values values' : List (String × Float), (values.map Prod.fst).Nodup → values.Perm values' →
      ofNames values = ofNames values' := by
  intro same
  have capital := same [("x", 1), ("X", 2)] [("X", 2), ("x", 1)] (by decide) (.swap ..)
  revert capital
  decide +kernel

end Bindings

end UnitCalc.Formula
