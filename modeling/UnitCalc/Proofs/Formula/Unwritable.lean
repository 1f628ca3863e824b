import UnitCalc.Proofs.Double.Order
import UnitCalc.Proofs.Formula.Linear

/-!
# `Proofs.Formula.Unwritable` — linear formulas of numbers that have no literal

An infinity and a value that is no number are written as words. Every name in a formula is that of a variable, a
constant or a function (`Derives.isKnown`), and these words are not; so a text that has one of them among its
words is not a formula, whatever else it has (`exists_error_of_unknown`).

The text of a linear formula has such a word whenever the scale is not finite or the offset is infinite. An offset
that is no number is neither above zero nor below it, and is left out like a zero; what is left is a formula for
another function (`Named.linear_special`).
-/

namespace UnitCalc.Formula

open Double

/-! ## Names in formulas -/

/-- The name stands for something in a formula. -/
def isKnown (name : String) : Bool :=
  (Var.ofName? name).isSome || (Const.ofName? name).isSome || (Func.ofName? name).isSome

/-- **Every name in a part of a formula is known.** -/
theorem Derives.isKnown {p : Part} {n m : Nat} {ts : List Placed} {e : Expr} {name : String}
    (h : Derives p n ts e) (mem : ((Token.name name, m) : Placed) ∈ ts) : isKnown name = true := by
  induction h with
  | expression _ ih | additive _ ih | multiplicative _ ih | unary _ ih | power _ ih => exact ih mem
  | sum _ op _ ihl ihr =>
    rcases additive?_eq_some.1 op with ⟨rfl, -⟩ | ⟨rfl, -⟩ <;> exact Or.elim (by simpa using mem) ihl ihr
  | product _ op _ ihl ihr =>
    rcases multiplicative?_eq_some.1 op with ⟨rfl, -⟩ | ⟨rfl, -⟩ <;> exact Or.elim (by simpa using mem) ihl ihr
  | raised _ _ ihb ihx => exact Or.elim (by simpa using mem) ihb ihx
  | negation _ ih | group _ ih => exact ih (by simpa using mem)
  | num => simp at mem
  | var v =>
    obtain ⟨rfl, -⟩ : name = v.name ∧ m = _ := by simpa using mem
    cases v <;> decide
  | const c =>
    obtain ⟨rfl, -⟩ : name = c.key ∧ m = _ := by simpa using mem
    cases c <;> decide
  | @call n f args _ ih =>
    have no_comma : ((Token.name name, m) : Placed) ≠ (.comma, n) := by simp
    simp only [List.cons_append, List.mem_cons, List.mem_append, mem_separated no_comma, List.mem_map,
      Prod.mk.injEq, Token.name.injEq, reduceCtorEq, false_and, false_or, List.not_mem_nil, or_false] at mem
    rcases mem with ⟨rfl, -⟩ | ⟨_, ⟨a, ha, rfl⟩, inside⟩
    · cases f <;> decide
    · exact ih a ha inside

/-- A text with an unknown name among its words is not a formula, whatever the limit. -/
theorem exists_error_of_unknown {s name : String} (unknown : isKnown name = false)
    (mem : Token.name name ∈ words s) (limit : Nat) : ∃ e, parseUpTo limit s = .error e := by
  cases parsed : parseUpTo limit s with
  | error e => exact ⟨e, rfl⟩
  | ok tree =>
    obtain ⟨ps, tokens, derives, -⟩ := accepted_of_parseUpTo parsed
    rw [← tokens] at mem
    obtain ⟨⟨t, m⟩, placed, rfl⟩ := List.mem_map.1 mem
    rw [derives.isKnown placed] at unknown
    cases unknown

theorem evaluate_of_error {settings : Settings} {b : Bindings} {s : String} {e : ParseError}
    (refused : parseUpTo settings.maxDepth s = .error e) : evaluate settings b s = .error (.parse e) := by
  rw [evaluate, compile, refused]

/-! ## Numbers without a literal -/

theorem cases_special (x : Float) : x.isFinite = true ∨ x = infinity ∨ x = -infinity ∨ x = notANumber := by
  rw [isFinite_eq]
  cases eq : x.toModel.unpack with
  | zero s | finite s => exact .inl rfl
  | infinity s =>
    cases s with
    | positive => exact .inr (.inl (eq_of_unpack_eq eq))
    | negative => exact .inr (.inr (.inl (eq_of_unpack_eq eq)))
  | notANumber => exact .inr (.inr (.inr (eq_of_unpack_eq eq)))

/-- A number that is not finite is written as a name, perhaps with a sign, and the name is unknown. -/
theorem exists_unknown_chars {x : Float} (special : x.isFinite = false) {rest : List Char}
    (delimited : Delimited rest) :
    ∃ name, isKnown name = false ∧ Token.name name ∈ wordsOf (chars x ++ rest) := by
  rcases cases_special x with finite | rfl | rfl | rfl
  · rw [finite] at special
    cases special
  · have spelled : wordsOf ("inf".toList ++ rest) = _ := wordsOf_string (by decide) delimited
    have written : chars infinity = "inf".toList := by decide
    rw [written, spelled]
    exact ⟨"inf", by decide, List.mem_cons_self⟩
  · have spelled : wordsOf ("inf".toList ++ rest) = _ := wordsOf_string (by decide) delimited
    have written : chars (-infinity) = '-' :: "inf".toList := by decide
    rw [written, List.cons_append, Spells.wordsOf_minus, spelled]
    exact ⟨"inf", by decide, List.mem_cons_of_mem _ List.mem_cons_self⟩
  · have spelled : wordsOf ("NaN".toList ++ rest) = _ := wordsOf_string (by decide) delimited
    have written : chars notANumber = "NaN".toList := by decide
    rw [written, spelled]
    exact ⟨"nan", by decide, List.mem_cons_self⟩

/-! ## Linear formulas -/

section Linear

variable {scale offset : Float}

/-- What stands behind the product. -/
def offsetChars (offset : Float) : List Char :=
  if offset > 0 then " + ".toList ++ chars offset
  else if offset < 0 then " - ".toList ++ chars offset.abs
  else []

theorem linearText_split (scale offset : Float) :
    linearText scale offset = String.ofList ("x * ".toList ++ chars scale ++ offsetChars offset) :=
  rfl

theorem delimited_offsetChars (offset : Float) : Delimited (offsetChars offset) := by
  rw [offsetChars]
  split
  · exact delimited_cons (by decide) (by decide)
  · split
    · exact delimited_cons (by decide) (by decide)
    · exact delimited_nil

/-- The first two words, and those of the scale and of what stands behind it. -/
theorem words_linearText (scale offset : Float) :
    words (linearText scale offset) = .name "x" :: .times :: wordsOf (chars scale ++ offsetChars offset) := by
  have variable_first : wordsOf ("x".toList ++ ' ' :: '*' :: ' ' :: (chars scale ++ offsetChars offset)) = _ :=
    wordsOf_string (by decide) (delimited_cons (by decide) (by decide))
  rw [wordsOf_blank (by decide), wordsOf_single (by decide) (by decide) (by decide), wordsOf_blank (by decide)]
    at variable_first
  rw [words_eq, linearText_split, String.toList_ofList, List.append_assoc]
  exact variable_first

/-- The words of a finite scale do not run into those of the offset. -/
theorem mem_words_of_offset (finite : scale.isFinite = true) {t : Token}
    (mem : t ∈ wordsOf (offsetChars offset)) : t ∈ words (linearText scale offset) := by
  have literal : (Expr.num scale).Literals fun x => x.isFinite = true := Expr.literals_num.2 finite
  obtain ⟨ps, -, -, spelled⟩ := spells_render literal (Nat.le_add_right (0 + (Expr.num scale).normal.height) _)
  have scale_first : wordsOf (chars scale ++ offsetChars offset) = _ := spelled _ (delimited_offsetChars offset)
  rw [words_linearText, scale_first]
  exact List.mem_cons_of_mem _ (List.mem_cons_of_mem _ (List.mem_append_right _ mem))

/-- The text has an unknown name in it when the scale is not finite or the offset is infinite. -/
theorem exists_unknown_linearText
    (special : scale.isFinite = false ∨ offset = infinity ∨ offset = -infinity) :
    ∃ name, isKnown name = false ∧ Token.name name ∈ words (linearText scale offset) := by
  cases finite : scale.isFinite with
  | false =>
    obtain ⟨name, unknown, mem⟩ := exists_unknown_chars finite (delimited_offsetChars offset)
    rw [words_linearText]
    exact ⟨name, unknown, List.mem_cons_of_mem _ (List.mem_cons_of_mem _ mem)⟩
  | true =>
    refine ⟨"inf", by decide, mem_words_of_offset finite ?_⟩
    rcases special with unbounded | rfl | rfl
    · rw [finite] at unbounded
      cases unbounded
    · have spelled : wordsOf (offsetChars infinity) = [.plus, .name "inf"] := by decide +kernel
      simp [spelled]
    · have spelled : wordsOf (offsetChars (-infinity)) = [.minus, .name "inf"] := by decide +kernel
      simp [spelled]

/-- An offset that is no number is left out, as a zero is. -/
theorem linearText_notANumber (scale : Float) : linearText scale notANumber = linearText scale 0 := by
  have nothing : offsetChars notANumber = offsetChars 0 := by decide
  rw [linearText_split, nothing, ← linearText_split]

/-- The text without an offset computes the product. -/
theorem evalAt_linear_zero (id : Uuid) (name symbol : String) (finite : scale.isFinite = true) (x : Float) :
    (Named.linear id name symbol scale 0).evalAt x = .ok (x * scale) := by
  have tree : linearTree scale 0 = scaled scale := by
    rw [linearTree, if_neg (by decide), if_neg (by decide)]
  have same : words (linearText scale 0) = words (linearTree scale 0).text := by rw [linearText_eq]
  have depth : (linearTree scale 0).normal.depth ≤ defaultMaxDepth :=
    (depth_linearTree scale 0).trans (by decide)
  have value : (linearTree scale 0).value {} (.ofX x) = .ok (x * scale) := by
    rw [tree]
    rfl
  exact evaluate_of_words same (literals_linearTree finite (by decide)) callsAccepted_linearTree depth value

end Linear

/-- **A number without a literal makes no linear formula**, with one exception. The text is refused within every
limit, and the formula has an error at every `x`, unless the scale is finite and the offset is no number: such
an offset is left out, and the formula computes the product alone. -/
theorem Named.linear_special (id : Uuid) (name symbol : String) {scale offset : Float}
    (special : scale.isFinite = false ∨ offset.isFinite = false) :
    let formula := Named.linear id name symbol scale offset
    if scale.isFinite = true ∧ offset.isNaN = true then
      formula.source = linearText scale 0 ∧ ∀ x, formula.evalAt x = .ok (x * scale)
    else
      (∀ limit, ∃ e, parseUpTo limit formula.source = .error e)
        ∧ ∀ x, ∃ e, formula.evalAt x = .error (.parse e) := by
  intro formula
  split
  · next left_out =>
    obtain ⟨finite, none⟩ := left_out
    obtain rfl : offset = notANumber := by
      rcases cases_special offset with bounded | rfl | rfl | rfl
      · simp [finite, bounded] at special
      · exact absurd none (by decide)
      · exact absurd none (by decide)
      · rfl
    have zero : formula = Named.linear id name symbol scale 0 := by
      rw [Named.linear, ← linearText_notANumber]
      rfl
    rw [zero]
    exact ⟨rfl, evalAt_linear_zero id name symbol finite⟩
  · next written =>
    have words_unknown : scale.isFinite = false ∨ offset = infinity ∨ offset = -infinity := by
      rcases cases_special offset with bounded | infinite | infinite | rfl
      · simp [bounded] at special
        exact .inl special
      · exact .inr (.inl infinite)
      · exact .inr (.inr infinite)
      · exact .inl (Bool.eq_false_iff.2 fun finite => written ⟨finite, by decide⟩)
    obtain ⟨name, unknown, mem⟩ := exists_unknown_linearText words_unknown
    obtain ⟨e, refused⟩ := exists_error_of_unknown unknown mem defaultMaxDepth
    exact ⟨exists_error_of_unknown unknown mem, fun x => ⟨e, evaluate_of_error refused⟩⟩

/-- An infinite offset has a word that is unknown. -/
theorem Named.linear_special_infinite :
    ((2 : Float).isFinite = false ∨ infinity.isFinite = false)
      ∧ linearText 2 infinity = "x * 2 + inf"
      ∧ (∀ limit, ∃ e, parseUpTo limit (linearText 2 infinity) = .error e)
      ∧ ∃ e, (Named.linear .nil "Offset" "o" 2 infinity).evalAt 1 = .error (.parse e) := by
  have special : (2 : Float).isFinite = false ∨ infinity.isFinite = false := .inr (by decide)
  have outcome := Named.linear_special .nil "Offset" "o" special
  have number : ¬ ((2 : Float).isFinite = true ∧ infinity.isNaN = true) := by decide
  dsimp only at outcome
  rw [if_neg number] at outcome
  exact ⟨special, by decide +kernel, outcome.1, outcome.2 1⟩

/-- Not every such formula is refused: twice `x` with no number added is twice `x`. -/
theorem Named.linear_left_out :
    ¬ ∀ scale offset : Float, (scale.isFinite = false ∨ offset.isFinite = false) →
        (∃ e, parse (linearText scale offset) = .error e)
          ∧ ∀ x, ∃ e, (Named.linear .nil "Offset" "o" scale offset).evalAt x = .error e := by
  intro always
  obtain ⟨-, refused⟩ := always 2 notANumber (.inr (by decide))
  obtain ⟨e, error⟩ := refused 1
  have value : (Named.linear .nil "Offset" "o" 2 notANumber).evalAt 1 = .ok (1 * 2) := by
    rw [Named.linear, linearText_notANumber]
    exact evalAt_linear_zero .nil "Offset" "o" (by decide) 1
  rw [value] at error
  cases error

end UnitCalc.Formula
