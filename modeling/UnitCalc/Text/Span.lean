/-!
# `UnitCalc.Text.Span` — runs at the head of a text

A span cuts a text in two: the longest run of its kind, which may be empty, and what follows.
Every span comes with the law that nothing is lost.
-/

namespace UnitCalc.Text

/-- The digits at the head of a text, and what follows. -/
def digitSpan (cs : List Char) : List Char × List Char :=
  (cs.takeWhile Char.isDigit, cs.dropWhile Char.isDigit)

theorem digitSpan_append (cs : List Char) : (digitSpan cs).1 ++ (digitSpan cs).2 = cs :=
  List.takeWhile_append_dropWhile

/-- A sign or nothing, and what follows. -/
def signSpan : List Char → List Char × List Char
  | '+' :: cs => (['+'], cs)
  | '-' :: cs => (['-'], cs)
  | cs => ([], cs)

theorem signSpan_append (cs : List Char) : (signSpan cs).1 ++ (signSpan cs).2 = cs := by
  unfold signSpan
  split <;> rfl

/-- The mark of an exponent. -/
def isExponentMark (c : Char) : Bool :=
  c == 'e' || c == 'E'

/-- An exponent, which is a mark, an optional sign and at least one digit, and what follows. -/
def exponentSpan : List Char → List Char × List Char
  | [] => ([], [])
  | mark :: cs =>
    let digits := digitSpan (signSpan cs).2
    if isExponentMark mark && !digits.1.isEmpty then
      (mark :: (signSpan cs).1 ++ digits.1, digits.2)
    else ([], mark :: cs)

theorem exponentSpan_append (cs : List Char) : (exponentSpan cs).1 ++ (exponentSpan cs).2 = cs := by
  unfold exponentSpan
  split
  · rfl
  · next mark cs =>
    dsimp only
    split
    · simp [List.append_assoc, digitSpan_append, signSpan_append]
    · rfl

end UnitCalc.Text
