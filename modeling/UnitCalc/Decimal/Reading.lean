import UnitCalc.Decimal.Basic
import UnitCalc.Text.Span

/-!
# `UnitCalc.Decimal.Reading` — numbers read from text

A number is written as digits with at most one point among them, and an optional exponent. At
least one digit stands before the exponent, on either side of the point.

## Contents
- **Exponents.** `Decimal.exponentOf?`.
- **Unsigned numbers.** `Decimal.ofChars?`.
- **Signed doubles.** `Double.ofText?`, which also knows the names of the special values.
-/

namespace UnitCalc

namespace Decimal

/-- The value of a run of decimal digits. -/
def natOfDigits (ds : List Char) : Nat :=
  Nat.ofDigitChars 10 ds 0

/-- A non-empty run of digits. -/
def natOfChars? (ds : List Char) : Option Nat :=
  if ds ≠ [] ∧ ds.all Char.isDigit then some (natOfDigits ds) else none

/-- A natural number with the sign that stands before it. -/
def signed (sign : List Char) (n : Nat) : Int :=
  if sign = ['-'] then -(n : Int) else n

/-- The exponent that ends a number: nothing, or a mark, an optional sign and digits. -/
def exponentOf? : List Char → Option Int
  | [] => some 0
  | mark :: cs =>
    if Text.isExponentMark mark then
      (natOfChars? (Text.signSpan cs).2).map (signed (Text.signSpan cs).1)
    else none

/-- The decimal places of a number, behind its point, and what follows. -/
def placesSpan : List Char → List Char × List Char
  | '.' :: cs => Text.digitSpan cs
  | cs => ([], cs)

/-- The decimal that a text of an unsigned number stands for. -/
def ofChars? (cs : List Char) : Option Decimal :=
  let (whole, afterWhole) := Text.digitSpan cs
  let (places, afterPlaces) := placesSpan afterWhole
  if whole ++ places = [] then none
  else (exponentOf? afterPlaces).map fun e =>
    ⟨natOfDigits (whole ++ places), e - places.length⟩

end Decimal

namespace Double

/-- The double that an unsigned text stands for: a number, or the name of a special value in any
    case. -/
def ofUnsigned? (cs : List Char) : Option Float :=
  let name := String.ofList (cs.map Char.toLower)
  if name = "inf" ∨ name = "infinity" then some infinity
  else if name = "nan" then some notANumber
  else (Decimal.ofChars? cs).map Decimal.toFloat

/-- The double nearest to the number that a text stands for. -/
def ofText? (s : String) : Option Float :=
  match s.toList with
  | '-' :: cs => (ofUnsigned? cs).map fun x => -x
  | '+' :: cs => ofUnsigned? cs
  | cs => ofUnsigned? cs

end Double

end UnitCalc
