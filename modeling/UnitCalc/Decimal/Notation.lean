import UnitCalc.Decimal.Shortest

/-!
# `UnitCalc.Decimal.Notation` — numbers written out

Numbers appear in messages and formulas in *plain* notation: shortest digits, never an exponent,
no point when there are no decimal places. Where the last digits are not to be trusted they are
written in *scientific* notation with a fixed number of places.

## Contents
- **Plain notation.** `Decimal.plain`, `Double.text`.
- **Scientific notation.** `Double.scientific`.
-/

namespace UnitCalc

/-- All digits in place: zeros fill up to the point from either side. -/
def Decimal.plain (d : Decimal) : List Char :=
  match d.exponent with
  | .ofNat e => if d.coefficient = 0 then ['0'] else d.digits ++ List.replicate e '0'
  | .negSucc k =>
    let places := k + 1
    let padded := List.replicate (places + 1 - d.width) '0' ++ d.digits
    let whole := padded.length - places
    padded.take whole ++ '.' :: padded.drop whole

namespace Double

/-- How infinities and not-a-number are written; the latter never has a sign. -/
def specialChars (x : Float) : List Char :=
  if x.isNaN then "NaN".toList
  else if isNegative x then "-inf".toList
  else "inf".toList

/-- A minus sign or nothing. -/
def signChars (negative : Bool) : List Char :=
  if negative then ['-'] else []

/-- A double in plain notation: the shortest digits that read back, a tie going up. -/
def chars (x : Float) : List Char :=
  match parts? x with
  | none => specialChars x
  | some p => signChars p.negative ++ (Decimal.shortest .up p).plain

/-- A double in plain notation. -/
def text (x : Float) : String :=
  String.ofList (chars x)

/-- The digits before and after the point, and the exponent, of a magnitude rounded to
    `places + 1` digits with a tie going to the even neighbour. -/
def scientificParts (places : Nat) (d : Decimal) : List Char × Int :=
  if d.coefficient = 0 then (List.replicate (places + 1) '0', 0)
  else
    let lead : Int := d.exponent + d.width - 1
    if d.width ≤ places + 1 then
      (d.digits ++ List.replicate (places + 1 - d.width) '0', lead)
    else
      let rounded := Tie.even.roundDiv d.coefficient (Nat.pow 10 (d.width - (places + 1)))
      if rounded = Nat.pow 10 (places + 1) then (Nat.toDigits 10 (rounded / 10), lead + 1)
      else (Nat.toDigits 10 rounded, lead)

/-- A double with one digit before the point, `places` digits after it and an exponent. -/
def scientific (places : Nat) (x : Float) : String :=
  match parts? x with
  | none => String.ofList (specialChars x)
  | some p =>
    let (ds, e) := scientificParts places (Decimal.ofParts p)
    let mantissa := ds.take 1 ++ (if places = 0 then [] else '.' :: ds.drop 1)
    String.ofList (signChars p.negative ++ mantissa) ++ "e" ++ toString e

end Double

end UnitCalc
