import UnitCalc.Decimal.Notation
import UnitCalc.Decimal.Reading
import UnitCalc.Json.Basic

/-!
# `UnitCalc.Json.Number` — the spelling of JSON numbers

## Contents
- **Reading.** `numeralSpan?`: the numeral at the head of a text. Leading zeros, a bare point and an
  empty exponent are no numerals.
- **Writing.** `Json.ofFloat`: shortest digits, a tie going to the even digit. Digits stand in place
  when the point lies at most sixteen digits behind the first one and at most four zeros before it,
  and then there is at least one decimal place; otherwise there is an exponent with its sign.
-/

namespace UnitCalc.Json

open Text (digitSpan signSpan isExponentMark)

/-! ## Reading -/

/-- The whole part of a numeral: a zero, or digits that begin with another one. -/
def wholeSpan? : List Char → Option (List Char × List Char)
  | [] => none
  | '0' :: cs => if (digitSpan cs).1 = [] then some (['0'], cs) else none
  | c :: cs => if c.isDigit then some (digitSpan (c :: cs)) else none

/-- The decimal places of a numeral with their point, or nothing. -/
def fractionSpan? : List Char → Option (List Char × List Char)
  | '.' :: cs =>
    let (places, rest) := digitSpan cs
    if places = [] then none else some ('.' :: places, rest)
  | cs => some ([], cs)

/-- The exponent of a numeral with its mark, or nothing. -/
def powerSpan? : List Char → Option (List Char × List Char)
  | [] => some ([], [])
  | c :: cs =>
    if isExponentMark c then
      let (sign, r) := signSpan cs
      let (digits, rest) := digitSpan r
      if digits = [] then none else some (c :: sign ++ digits, rest)
    else some ([], c :: cs)

/-- A minus sign or nothing. -/
def minusSpan : List Char → List Char × List Char
  | '-' :: cs => (['-'], cs)
  | cs => ([], cs)

/-- The numeral at the head of a text, and what follows it. -/
def numeralSpan? (cs : List Char) : Option (List Char × List Char) := do
  let (sign, cs) := minusSpan cs
  let (whole, cs) ← wholeSpan? cs
  let (fraction, cs) ← fractionSpan? cs
  let (power, cs) ← powerSpan? cs
  return (sign ++ whole ++ fraction ++ power, cs)

/-! ## Writing -/

/-- A magnitude with one digit before the point, and an exponent that always has a sign. -/
def scientificChars (d : Decimal) : List Char :=
  let power : Int := d.exponent + d.width - 1
  let places := d.digits.drop 1
  d.digits.take 1 ++ (if places = [] then [] else '.' :: places) ++
    'e' :: (if power < 0 then '-' else '+') :: Nat.toDigits 10 power.natAbs

/-- A magnitude with all its digits in place and at least one decimal place. -/
def placedChars (d : Decimal) : List Char :=
  if 0 ≤ d.exponent then d.plain ++ ['.', '0'] else d.plain

/-- A magnitude. -/
def magnitudeChars (d : Decimal) : List Char :=
  let point : Int := d.exponent + d.width
  if d.coefficient = 0 ∨ (-5 < point ∧ point ≤ 16) then placedChars d else scientificChars d

/-- A double as a number, and `null` when it is infinite or no number. -/
def ofFloat (x : Float) : Json :=
  match Double.parts? x with
  | none => null
  | some p =>
    num (String.ofList
      (Double.signChars p.negative ++ magnitudeChars (Decimal.shortest .even p)))

end UnitCalc.Json
