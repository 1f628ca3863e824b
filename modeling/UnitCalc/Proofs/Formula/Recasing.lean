import Mathlib.Data.List.Forall2
import UnitCalc.Proofs.Formula.Words

/-!
# `Proofs.Formula.Recasing` — words in another case

A word in which letters have another case stands for the same token (`ofLexeme_recased`), and it is cut from a
text in the same way (`steady_lexeme`), wherever white space is inserted behind it.

What is cut at the head of a text depends on what follows, since a number goes on with an exponent only if
there is one. The text behind a word may therefore be changed only so that what is seen of it up to the first
white space has been there before (`Alike`). A span is `Steady` if it cuts the same from all texts that are
alike in this sense, and the spans of the lexer are put together from steady ones.
-/

namespace UnitCalc.Formula

open Text (isBlank digitSpan digitSpan_append signSpan signSpan_append exponentSpan isExponentMark)

/-! ## Characters -/

theorem isUpper_iff {c : Char} : c.isUpper = true ↔ 65 ≤ c.toNat ∧ c.toNat ≤ 90 := by
  simp only [Char.isUpper, decide_eq_true_eq, ge_iff_le, UInt32.le_iff_toNat_le]
  rfl

theorem isLower_iff {c : Char} : c.isLower = true ↔ 97 ≤ c.toNat ∧ c.toNat ≤ 122 := by
  simp only [Char.isLower, Bool.and_eq_true, decide_eq_true_eq, ge_iff_le, UInt32.le_iff_toNat_le]
  rfl

theorem isAlpha_iff {c : Char} :
    c.isAlpha = true ↔ 65 ≤ c.toNat ∧ c.toNat ≤ 90 ∨ 97 ≤ c.toNat ∧ c.toNat ≤ 122 := by
  rw [Char.isAlpha, Bool.or_eq_true, isUpper_iff, isLower_iff]

theorem toNat_toLower (c : Char) : c.toLower.toNat = if c.isUpper then c.toNat + 32 else c.toNat := by
  rw [Char.toLower]
  by_cases upper : c.isUpper = true
  · rw [if_pos upper, dif_pos (by simpa [Char.isUpper] using upper)]
    have small : c.val.toNat ≤ 90 := (isUpper_iff.1 upper).2
    show (c.val + 32).toNat = c.val.toNat + 32
    rw [UInt32.toNat_add, Nat.mod_eq_of_lt (Nat.lt_of_le_of_lt (Nat.add_le_add_right small _) (by decide))]
    rfl
  · rw [if_neg upper, dif_neg (by simpa [Char.isUpper] using upper)]

/-- The characters differ at most in the case of an ASCII letter. -/
def Recased (c d : Char) : Prop :=
  c.toLower = d.toLower

instance (c d : Char) : Decidable (Recased c d) :=
  inferInstanceAs (Decidable (c.toLower = d.toLower))

variable {c d : Char}

theorem Recased.refl (c : Char) : Recased c c :=
  rfl

/-- Only letters can be recased. -/
theorem Recased.eq_or_letters (h : Recased c d) : c = d ∨ c.isAlpha = true ∧ d.isAlpha = true := by
  have code := congrArg Char.toNat h
  rw [toNat_toLower, toNat_toLower] at code
  rw [isAlpha_iff, isAlpha_iff]
  by_cases upper : c.isUpper = true <;> by_cases upper' : d.isUpper = true
  · rw [if_pos upper, if_pos upper'] at code
    exact .inl (Char.toNat_inj.1 (Nat.add_right_cancel code))
  · rw [if_pos upper, if_neg upper'] at code
    have range := isUpper_iff.1 upper
    omega
  · rw [if_neg upper, if_pos upper'] at code
    have range := isUpper_iff.1 upper'
    omega
  · rw [if_neg upper, if_neg upper'] at code
    exact .inl (Char.toNat_inj.1 code)

theorem Recased.eq (h : Recased c d) (other : c.isAlpha = false) : c = d :=
  h.eq_or_letters.resolve_right fun letters => absurd letters.1 (by simp [other])

/-- The property does not depend on the case of letters. -/
def CaseBlind (p : Char → Bool) : Prop :=
  ∀ ⦃c d⦄, Recased c d → p c = p d

/-- What all letters have in common does not depend on their case. -/
theorem caseBlind_of_letters {p : Char → Bool} (b : Bool) (h : ∀ c, c.isAlpha = true → p c = b) :
    CaseBlind p := by
  intro c d recased
  rcases recased.eq_or_letters with rfl | ⟨letter, letter'⟩
  · rfl
  · rw [h c letter, h d letter']

theorem isNameStart_of_isAlpha (letter : c.isAlpha = true) : isNameStart c = true := by
  rw [isNameStart, letter, Bool.true_or]

theorem caseBlind_isBlank : CaseBlind isBlank :=
  caseBlind_of_letters false fun _ letter => (isBlank_of_isNameStart (isNameStart_of_isAlpha letter)).1

theorem caseBlind_isNumberStart : CaseBlind isNumberStart :=
  caseBlind_of_letters false fun _ letter => (isBlank_of_isNameStart (isNameStart_of_isAlpha letter)).2

theorem isDigit_of_isAlpha (letter : c.isAlpha = true) : c.isDigit = false := by
  have start := (isBlank_of_isNameStart (isNameStart_of_isAlpha letter)).2
  rw [isNumberStart, Bool.or_eq_false_iff] at start
  exact start.1

theorem caseBlind_isDigit : CaseBlind Char.isDigit :=
  caseBlind_of_letters false fun _ letter => isDigit_of_isAlpha letter

theorem caseBlind_isNameStart : CaseBlind isNameStart :=
  caseBlind_of_letters true fun _ letter => isNameStart_of_isAlpha letter

theorem caseBlind_isNamePart : CaseBlind isNamePart :=
  caseBlind_of_letters true fun _ letter => by rw [isNamePart, isNameStart_of_isAlpha letter, Bool.true_or]

theorem isExponentMark_eq (c : Char) : isExponentMark c = (c.toLower == 'e') := by
  have marks : c = 'e' ∨ c = 'E' ↔ c.toLower = 'e' := by
    rw [← Char.toNat_inj, ← Char.toNat_inj, ← Char.toNat_inj, toNat_toLower]
    show c.toNat = 101 ∨ c.toNat = 69 ↔ _ = 101
    by_cases upper : c.isUpper = true
    · have range := isUpper_iff.1 upper
      rw [if_pos upper]
      omega
    · have range := mt isUpper_iff.2 upper
      rw [if_neg upper]
      omega
  rw [isExponentMark, Bool.eq_iff_iff, Bool.or_eq_true, beq_iff_eq, beq_iff_eq, beq_iff_eq]
  exact marks

theorem caseBlind_isExponentMark : CaseBlind isExponentMark := by
  intro c d recased
  rw [isExponentMark_eq, isExponentMark_eq, show c.toLower = d.toLower from recased]

theorem utf8Size_of_isAlpha (letter : c.isAlpha = true) : c.utf8Size = 1 := by
  rw [Char.utf8Size_eq_one_iff, UInt32.le_iff_toNat_le]
  have range := isAlpha_iff.1 letter
  have code : c.val.toNat = c.toNat := rfl
  show c.val.toNat ≤ 127
  omega

theorem utf8Size_recased (h : Recased c d) : d.utf8Size = c.utf8Size := by
  rcases h.eq_or_letters with rfl | ⟨letter, letter'⟩
  · rfl
  · rw [utf8Size_of_isAlpha letter, utf8Size_of_isAlpha letter']

/-! ## Words -/

/-- The words differ at most in the case of ASCII letters. -/
abbrev Respelled : List Char → List Char → Prop :=
  List.Forall₂ Recased

variable {w w' : List Char}

theorem Respelled.refl (w : List Char) : Respelled w w :=
  List.forall₂_same.2 fun c _ => .refl c

theorem map_toLower_respelled (h : Respelled w w') : w.map Char.toLower = w'.map Char.toLower := by
  induction h with
  | nil => rfl
  | cons recased _ ih => rw [List.map_cons, List.map_cons, ih, show _ = _ from recased]

theorem byteLength_respelled (h : Respelled w w') : byteLength w' = byteLength w := by
  induction h with
  | nil => rfl
  | @cons c d w w' recased _ ih =>
    show d.utf8Size + byteLength w' = c.utf8Size + byteLength w
    rw [utf8Size_recased recased, ih]

theorem all_respelled {p : Char → Bool} (blind : CaseBlind p) (h : Respelled w w') : w'.all p = w.all p := by
  induction h with
  | nil => rfl
  | cons recased _ ih => rw [List.all_cons, List.all_cons, blind recased, ih]

/-- A word without letters has no case. -/
theorem eq_of_respelled (h : Respelled w w') (other : ∀ c ∈ w, c.isAlpha = false) : w' = w := by
  induction h with
  | nil => rfl
  | cons recased _ ih =>
    obtain ⟨first, others⟩ := List.forall_mem_cons.1 other
    rw [ih others, recased.eq first]

theorem isAlpha_of_isDigit (digit : c.isDigit = true) : c.isAlpha = false := by
  by_contra letter
  rw [isDigit_of_isAlpha (by simpa using letter)] at digit
  cases digit

/-- A respelled text falls into respelled parts where the text does. -/
theorem Respelled.exists_append {u v : List Char} (h : Respelled (u ++ v) w') :
    ∃ u' v', w' = u' ++ v' ∧ Respelled u u' ∧ Respelled v v' := by
  induction u generalizing w' with
  | nil => exact ⟨[], w', rfl, .nil, h⟩
  | cons c u ih =>
    cases h with
    | cons recased rest =>
      obtain ⟨u', v', rfl, left, right⟩ := ih rest
      exact ⟨_ :: u', v', rfl, .cons recased left, right⟩

/-! ## Texts behind a word -/

/-- The text `cs'` goes on as `cs` does, but for the case of letters, up to its end or to white space. -/
inductive Alike : List Char → List Char → Prop
  | stop {cs cs' : List Char} (blank : ∀ c, cs'.head? = some c → isBlank c = true) : Alike cs cs'
  | cons {c d : Char} {cs ds : List Char} (recased : Recased c d) (rest : Alike cs ds) :
      Alike (c :: cs) (d :: ds)

variable {r r' : List Char}

theorem Alike.append (h : Respelled w w') (rest : Alike r r') : Alike (w ++ r) (w' ++ r') := by
  induction h with
  | nil => exact rest
  | cons recased _ ih => exact .cons recased ih

theorem alike_of_respelled (h : Respelled w w') : Alike w w' := by
  have ends : Alike [] [] := .stop nofun
  have whole := Alike.append h ends
  rwa [List.append_nil, List.append_nil] at whole

/-- A visible character that does not stand first in a text stands first in no text that is alike. -/
theorem Alike.head {p : Char → Bool} (h : Alike r r') (blind : CaseBlind p)
    (visible : ∀ c, p c = true → isBlank c = false)
    (first : ∀ c, r.head? = some c → p c = false) : ∀ c, r'.head? = some c → p c = false := by
  cases h with
  | stop blank =>
    intro c hc
    by_contra found
    exact absurd (blank c hc) (by simp [visible c (by simpa using found)])
  | @cons c d cs ds recased _ =>
    rintro e ⟨⟩
    rw [← blind recased]
    exact first c rfl

/-- The span cuts a word in the same way if letters of it are in another case and it is followed by a text
    that is alike. -/
def Steady (span : List Char → List Char × List Char) : Prop :=
  ∀ ⦃cs w r w' r'⦄, span cs = (w, r) → Respelled w w' → Alike r r' → span (w' ++ r') = (w', r')

theorem steady_takeWhile {p : Char → Bool} (blind : CaseBlind p)
    (visible : ∀ c, p c = true → isBlank c = false) : Steady fun cs => (cs.takeWhile p, cs.dropWhile p) := by
  intro cs w r w' r' cut respelled alike
  obtain ⟨rfl, rfl⟩ := Prod.mk.inj cut
  have all : (cs.takeWhile p).all p = true := List.all_takeWhile
  have first : ∀ c, (cs.dropWhile p).head? = some c → p c = false := by
    intro c hc
    have kept := List.head?_dropWhile_not p cs
    rw [hc] at kept
    exact kept
  rw [← all_respelled blind respelled, List.all_eq_true] at all
  obtain ⟨taken, dropped⟩ := takeWhile_append_of_stop all (alike.head blind visible first)
  exact Prod.ext taken dropped

theorem isBlank_of_isDigit (digit : c.isDigit = true) : isBlank c = false := by
  simp only [Char.isDigit, ge_iff_le, UInt32.le_iff_toNat_le, Bool.and_eq_true, decide_eq_true_eq] at digit
  exact not_isBlank_of_visible (Nat.le_trans (by decide) digit.1) (Nat.le_trans digit.2 (by decide))

theorem isBlank_of_isNamePart (part : isNamePart c = true) : isBlank c = false := by
  rw [isNamePart, Bool.or_eq_true] at part
  rcases part with start | digit
  · exact (isBlank_of_isNameStart start).1
  · exact isBlank_of_isDigit digit

theorem steady_digitSpan : Steady digitSpan :=
  steady_takeWhile caseBlind_isDigit fun _ => isBlank_of_isDigit

/-- A span that is one steady span behind another is steady. -/
theorem Steady.append {first second both : List Char → List Char × List Char} (hf : Steady first)
    (hs : Steady second) (lossless : ∀ cs, (second cs).1 ++ (second cs).2 = cs)
    (eq : ∀ cs, both cs = ((first cs).1 ++ (second (first cs).2).1, (second (first cs).2).2)) :
    Steady both := by
  intro cs w r w' r' cut respelled alike
  rw [eq] at cut
  obtain ⟨rfl, rfl⟩ := Prod.mk.inj cut
  obtain ⟨u, v, rfl, hu, hv⟩ := respelled.exists_append
  have behind : Alike (first cs).2 (v ++ r') := by
    rw [← lossless (first cs).2]
    exact .append hv alike
  have cut := hf rfl hu behind
  have cut' := hs rfl hv alike
  rw [List.append_assoc, eq, cut, cut']

/-! ## Signs, fractions and exponents -/

/-- One character of a kind or nothing, and what follows. -/
def optionSpan (p : Char → Bool) : List Char → List Char × List Char
  | [] => ([], [])
  | c :: cs => if p c then ([c], cs) else ([], c :: cs)

theorem optionSpan_append (p : Char → Bool) (cs : List Char) :
    (optionSpan p cs).1 ++ (optionSpan p cs).2 = cs := by
  unfold optionSpan
  split
  · rfl
  · split <;> rfl

theorem optionSpan_of_head {p : Char → Bool} {cs : List Char} (first : ∀ c, cs.head? = some c → p c = false) :
    optionSpan p cs = ([], cs) := by
  cases cs with
  | nil => rfl
  | cons c cs => rw [optionSpan, if_neg (by simp [first c rfl])]

section Option

variable {p : Char → Bool} (blind : CaseBlind p) (visible : ∀ c, p c = true → isBlank c = false)

include blind visible in
theorem steady_optionSpan : Steady (optionSpan p) := by
  intro cs w r w' r' cut respelled alike
  by_cases found : ∃ c, cs.head? = some c ∧ p c = true
  · obtain ⟨c, first, hc⟩ := found
    obtain ⟨cs, rfl⟩ := List.head?_eq_some_iff.1 first
    rw [optionSpan, if_pos hc] at cut
    obtain ⟨rfl, rfl⟩ := Prod.mk.inj cut
    cases respelled with
    | cons recased rest =>
      cases rest
      rw [blind recased] at hc
      exact if_pos hc
  · have first : ∀ c, cs.head? = some c → p c = false := by
      intro c hc
      by_contra other
      exact found ⟨c, hc, by simpa using other⟩
    rw [optionSpan_of_head first] at cut
    obtain ⟨rfl, rfl⟩ := Prod.mk.inj cut
    cases respelled
    exact optionSpan_of_head (alike.head blind visible first)

include blind visible in
theorem Alike.optionSpan (h : Alike r r') : Alike (optionSpan p r).2 (optionSpan p r').2 := by
  cases h with
  | stop blank =>
    have none : ∀ c, r'.head? = some c → p c = false := by
      intro c hc
      by_contra found
      exact absurd (blank c hc) (by simp [visible c (by simpa using found)])
    rw [optionSpan_of_head none]
    exact .stop blank
  | @cons c d cs ds recased rest =>
    rw [Formula.optionSpan, Formula.optionSpan, ← blind recased]
    by_cases hc : p c = true
    · rw [if_pos hc, if_pos hc]
      exact rest
    · rw [if_neg hc, if_neg hc]
      exact .cons recased rest

end Option

/-- The character is a sign. -/
def isSign (c : Char) : Bool :=
  c == '+' || c == '-'

theorem isSign_iff : isSign c = true ↔ c = '+' ∨ c = '-' := by
  rw [isSign, Bool.or_eq_true, beq_iff_eq, beq_iff_eq]

theorem caseBlind_isSign : CaseBlind isSign :=
  caseBlind_of_letters false fun c letter => by
    by_contra sign
    rcases isSign_iff.1 (by simpa using sign) with rfl | rfl <;> exact absurd letter (by decide)

theorem isBlank_of_isSign (sign : isSign c = true) : isBlank c = false := by
  rcases isSign_iff.1 sign with rfl | rfl <;> decide

theorem signSpan_eq : signSpan = optionSpan isSign := by
  funext cs
  unfold signSpan
  split
  · rfl
  · rfl
  · next no_plus no_minus =>
    refine (optionSpan_of_head fun c hc => ?_).symm
    obtain ⟨cs, rfl⟩ := List.head?_eq_some_iff.1 hc
    by_contra sign
    rcases isSign_iff.1 (by simpa using sign) with rfl | rfl
    · exact no_plus cs rfl
    · exact no_minus cs rfl

theorem steady_signSpan : Steady signSpan := by
  rw [signSpan_eq]
  exact steady_optionSpan caseBlind_isSign fun _ => isBlank_of_isSign

/-- The character is the point of a number. -/
def isPoint (c : Char) : Bool :=
  c == '.'

theorem caseBlind_isPoint : CaseBlind isPoint :=
  caseBlind_of_letters false fun c letter => by
    by_contra point
    obtain rfl : c = '.' := by simpa [isPoint] using point
    exact absurd letter (by decide)

theorem isBlank_of_isPoint (point : isPoint c = true) : isBlank c = false := by
  obtain rfl : c = '.' := by simpa [isPoint] using point
  decide

theorem digitSpan_of_head {cs : List Char} (first : ∀ c, cs.head? = some c → c.isDigit = false) :
    digitSpan cs = ([], cs) := by
  cases cs with
  | nil => rfl
  | cons c cs => simp [digitSpan, first c rfl]

theorem head_digitSpan (cs : List Char) : ∀ c, (digitSpan cs).2.head? = some c → c.isDigit = false := by
  intro c hc
  have kept := List.head?_dropWhile_not Char.isDigit cs
  rw [show cs.dropWhile Char.isDigit = (digitSpan cs).2 from rfl, hc] at kept
  exact kept

/-- A point and digits, where each part may be missing, and what follows. -/
def fractionSpan (cs : List Char) : List Char × List Char :=
  let rest := digitSpan (optionSpan isPoint cs).2
  ((optionSpan isPoint cs).1 ++ rest.1, rest.2)

theorem fractionSpan_append (cs : List Char) : (fractionSpan cs).1 ++ (fractionSpan cs).2 = cs := by
  rw [fractionSpan, List.append_assoc, digitSpan_append, optionSpan_append]

theorem steady_fractionSpan : Steady fractionSpan :=
  (steady_optionSpan caseBlind_isPoint fun _ => isBlank_of_isPoint).append steady_digitSpan digitSpan_append
    fun _ => rfl

/-- The mantissa of a number is made of digits and a fraction. -/
theorem mantissaSpan_eq (cs : List Char) : mantissaSpan cs
    = ((digitSpan cs).1 ++ (fractionSpan (digitSpan cs).2).1, (fractionSpan (digitSpan cs).2).2) := by
  have no_digit := head_digitSpan cs
  rw [mantissaSpan, fractionSpan]
  generalize digitSpan cs = cut at no_digit ⊢
  obtain ⟨whole, rest⟩ := cut
  cases rest with
  | nil => simp [optionSpan, digitSpan]
  | cons c rest =>
    by_cases point : c = '.'
    · subst point
      rfl
    · have none : optionSpan isPoint (c :: rest) = ([], c :: rest) :=
        optionSpan_of_head (by simpa [isPoint] using point)
      -- where no point stands, no digit stands either, since all digits are in front
      rw [none, digitSpan_of_head no_digit]
      split
      · next h => exact absurd (List.cons.inj (Prod.mk.inj h).2).1 point
      · next h =>
        obtain ⟨rfl, rfl⟩ := Prod.mk.inj h
        simp

theorem steady_mantissaSpan : Steady mantissaSpan :=
  steady_digitSpan.append steady_fractionSpan fractionSpan_append mantissaSpan_eq

/-- The text begins with an exponent. -/
def HasExponent (cs : List Char) : Prop :=
  ∃ mark ds, cs = mark :: ds ∧ isExponentMark mark = true ∧ (digitSpan (signSpan ds).2).1 ≠ []

theorem exponentSpan_of_none {cs : List Char} (none : ¬ HasExponent cs) : exponentSpan cs = ([], cs) := by
  cases cs with
  | nil => rfl
  | cons mark cs =>
    refine if_neg fun exponent => none ?_
    rw [Bool.and_eq_true, Bool.not_eq_true', List.isEmpty_eq_false_iff] at exponent
    exact ⟨mark, cs, rfl, exponent⟩

theorem isBlank_of_isExponentMark (mark : isExponentMark c = true) : isBlank c = false := by
  rw [isExponentMark, Bool.or_eq_true, beq_iff_eq, beq_iff_eq] at mark
  rcases mark with rfl | rfl <;> decide

/-- A text in which no exponent stands is alike to no text with one. -/
theorem HasExponent.of_alike (alike : Alike r r') (h : HasExponent r') : HasExponent r := by
  obtain ⟨mark, ds, rfl, hm, digits⟩ := h
  cases alike with
  | stop blank => exact absurd (blank mark rfl) (by simp [isBlank_of_isExponentMark hm])
  | @cons c d cs ds recased rest =>
    refine ⟨c, cs, rfl, by rw [caseBlind_isExponentMark recased]; exact hm, fun none => digits ?_⟩
    have unsigned : Alike (signSpan cs).2 (signSpan ds).2 := by
      rw [signSpan_eq]
      exact rest.optionSpan caseBlind_isSign fun _ => isBlank_of_isSign
    have first : ∀ c, (signSpan cs).2.head? = some c → c.isDigit = false := by
      have whole := digitSpan_append (signSpan cs).2
      rw [none, List.nil_append] at whole
      rw [← whole]
      exact head_digitSpan _
    rw [digitSpan_of_head (unsigned.head caseBlind_isDigit (fun _ => isBlank_of_isDigit) first)]

theorem exponentSpan_of_some {mark : Char} {cs : List Char} (hm : isExponentMark mark = true)
    (digits : (digitSpan (signSpan cs).2).1 ≠ []) : exponentSpan (mark :: cs)
      = (mark :: (signSpan cs).1 ++ (digitSpan (signSpan cs).2).1, (digitSpan (signSpan cs).2).2) := by
  refine if_pos ?_
  rw [hm, Bool.true_and, Bool.not_eq_true', List.isEmpty_eq_false_iff]
  exact digits

theorem steady_exponentSpan : Steady exponentSpan := by
  intro cs w r w' r' cut respelled alike
  by_cases exponent : HasExponent cs
  · obtain ⟨mark, cs, rfl, hm, digits⟩ := exponent
    rw [exponentSpan_of_some hm digits] at cut
    obtain ⟨rfl, rfl⟩ := Prod.mk.inj cut
    cases respelled with
    | @cons _ mark' _ _ recased rest =>
      obtain ⟨sign, ds, rfl, hs, hd⟩ := Respelled.exists_append rest
      have unsigned : Alike (signSpan cs).2 (ds ++ r') := by
        rw [← digitSpan_append (signSpan cs).2]
        exact .append hd alike
      have sign_cut := steady_signSpan rfl hs unsigned
      have digits_cut := steady_digitSpan rfl hd alike
      have some_digit : ds ≠ [] := by
        rintro rfl
        exact digits (List.forall₂_nil_right_iff.1 hd)
      rw [caseBlind_isExponentMark recased] at hm
      rw [List.cons_append, List.append_assoc, exponentSpan_of_some hm (by rwa [sign_cut, digits_cut]),
        sign_cut, digits_cut, List.cons_append]
  · rw [exponentSpan_of_none exponent] at cut
    obtain ⟨rfl, rfl⟩ := Prod.mk.inj cut
    cases respelled
    exact exponentSpan_of_none (mt (HasExponent.of_alike alike) exponent)

theorem steady_numberSpan : Steady numberSpan :=
  steady_mantissaSpan.append steady_exponentSpan Text.exponentSpan_append fun _ => rfl

/-! ## Lexemes -/

/-- **A lexeme is cut from a text in the same way** if letters of it are in another case and it is followed
    by a text that is alike. -/
theorem lexeme_respelled {cs ds : List Char} (respelled : Respelled (lexeme c cs).1 (d :: ds))
    (alike : Alike (lexeme c cs).2 r') : Recased c d ∧ lexeme d (ds ++ r') = (d :: ds, r') := by
  have recased : Recased c d := by
    have whole := lexeme_append c cs
    cases cut : (lexeme c cs).1 with
    | nil => exact absurd cut (lexeme_ne_nil c cs)
    | cons c' w =>
      rw [cut] at whole respelled
      cases respelled with
      | cons recased _ => rwa [← (List.cons.inj whole).1]
  refine ⟨recased, ?_⟩
  rw [lexeme, ← caseBlind_isNumberStart recased, ← caseBlind_isNameStart recased]
  rw [lexeme] at respelled alike
  by_cases number : isNumberStart c = true
  · rw [if_pos number] at respelled alike ⊢
    exact steady_numberSpan rfl respelled alike
  · rw [if_neg number] at respelled alike ⊢
    by_cases name : isNameStart c = true
    · rw [if_pos name] at respelled alike ⊢
      cases respelled with
      | cons _ rest =>
        have cut := steady_takeWhile caseBlind_isNamePart (fun _ => isBlank_of_isNamePart) rfl rest alike
        obtain ⟨taken, dropped⟩ := Prod.mk.inj cut
        rw [taken, dropped]
    · rw [if_neg name] at respelled ⊢
      cases respelled with
      | cons _ rest =>
        cases rest
        rfl

/-! ## Tokens -/

/-- A steady span without letters cuts the same word from a respelled one. -/
theorem Steady.respelled {span : List Char → List Char × List Char} (steady : Steady span)
    (lossless : ∀ cs, (span cs).1 ++ (span cs).2 = cs) (other : ∀ cs, ∀ c ∈ (span cs).1, c.isAlpha = false)
    (h : Respelled w w') : ∃ v, span w' = ((span w).1, v) ∧ Respelled (span w).2 v := by
  rw [← lossless w] at h
  obtain ⟨u, v, rfl, hu, hv⟩ := h.exists_append
  have same := eq_of_respelled hu (other w)
  rw [same] at hu ⊢
  exact ⟨v, steady rfl hu (alike_of_respelled hv), hv⟩

theorem digitSpan_respelled (h : Respelled w w') :
    ∃ v, digitSpan w' = ((digitSpan w).1, v) ∧ Respelled (digitSpan w).2 v := by
  refine steady_digitSpan.respelled digitSpan_append (fun cs c hc => ?_) h
  exact isAlpha_of_isDigit (List.all_eq_true.1 List.all_takeWhile c hc)

theorem signSpan_respelled (h : Respelled w w') :
    ∃ v, signSpan w' = ((signSpan w).1, v) ∧ Respelled (signSpan w).2 v := by
  refine steady_signSpan.respelled signSpan_append (fun cs => ?_) h
  unfold signSpan
  split
  · exact List.forall_mem_singleton.2 (by decide)
  · exact List.forall_mem_singleton.2 (by decide)
  · exact List.forall_mem_nil _

theorem placesSpan_of_ne {cs : List Char} (no_point : isPoint c = false) :
    Decimal.placesSpan (c :: cs) = ([], c :: cs) := by
  unfold Decimal.placesSpan
  split
  · next eq =>
    rw [(List.cons.inj eq).1] at no_point
    cases no_point
  · rfl

theorem placesSpan_respelled (h : Respelled w w') :
    ∃ v, Decimal.placesSpan w' = ((Decimal.placesSpan w).1, v) ∧ Respelled (Decimal.placesSpan w).2 v := by
  cases h with
  | nil => exact ⟨[], rfl, .nil⟩
  | @cons c d w w' recased rest =>
    by_cases point : isPoint c = true
    · obtain rfl : c = '.' := by simpa [isPoint] using point
      obtain rfl := recased.eq (by decide)
      exact digitSpan_respelled rest
    · rw [Bool.not_eq_true] at point
      have point' : isPoint d = false := by rw [← caseBlind_isPoint recased, point]
      rw [placesSpan_of_ne point, placesSpan_of_ne point']
      exact ⟨_, rfl, .cons recased rest⟩

theorem natOfChars?_respelled (h : Respelled w w') : Decimal.natOfChars? w' = Decimal.natOfChars? w := by
  rw [Decimal.natOfChars?, Decimal.natOfChars?]
  by_cases digits : w.all Char.isDigit = true
  · rw [eq_of_respelled h fun c hc => isAlpha_of_isDigit (List.all_eq_true.1 digits c hc)]
  · have digits' : ¬ w'.all Char.isDigit = true := by rwa [all_respelled caseBlind_isDigit h]
    rw [if_neg (mt And.right digits), if_neg (mt And.right digits')]

theorem exponentOf?_respelled (h : Respelled w w') : Decimal.exponentOf? w' = Decimal.exponentOf? w := by
  cases h with
  | nil => rfl
  | cons recased rest =>
    obtain ⟨v, cut, digits⟩ := signSpan_respelled rest
    rw [Decimal.exponentOf?, Decimal.exponentOf?, caseBlind_isExponentMark recased, cut,
      natOfChars?_respelled digits]

/-- A number with its `e` in another case is the same number. -/
theorem ofChars?_respelled (h : Respelled w w') : Decimal.ofChars? w' = Decimal.ofChars? w := by
  obtain ⟨v, whole, behind⟩ := digitSpan_respelled h
  obtain ⟨u, places, exponent⟩ := placesSpan_respelled behind
  simp only [Decimal.ofChars?, whole, places, exponentOf?_respelled exponent]

/-- A lexeme that begins with a letter is a name. -/
theorem ofLexeme_of_isAlpha (letter : c.isAlpha = true) (w : List Char) :
    Token.ofLexeme c w = .name (String.ofList (w.map Char.toLower)) := by
  have start := isNameStart_of_isAlpha letter
  have no_number := (isBlank_of_isNameStart start).2
  unfold Token.ofLexeme
  split <;> try exact absurd letter (by decide)
  rw [if_neg (by simp [no_number]), if_pos start]

/-- **A respelled word stands for the same token.** -/
theorem ofLexeme_respelled (recased : Recased c d) (h : Respelled w w') :
    Token.ofLexeme d w' = Token.ofLexeme c w := by
  rcases recased.eq_or_letters with rfl | ⟨letter, letter'⟩
  · unfold Token.ofLexeme
    rw [ofChars?_respelled h, map_toLower_respelled h]
  · rw [ofLexeme_of_isAlpha letter, ofLexeme_of_isAlpha letter', map_toLower_respelled h]

end UnitCalc.Formula
