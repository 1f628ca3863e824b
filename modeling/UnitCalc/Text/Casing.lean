import UnitCalc.Text.CasingTable
import UnitCalc.Text.Ranges

/-!
# `UnitCalc.Text.Casing` — lower case

Full lower-casing by the Unicode rules. Nearly every character has a lower-case form of its own;
two rules go beyond that: a capital I with a dot becomes two characters, and a capital sigma takes
its final form at the end of a word.

## Contents
- **Characters.** `lowerChar`.
- **Final sigma.** `isCased`, `isCaseIgnorable`, `meetsCased`.
- **Texts.** `lower`.
-/

namespace UnitCalc.Text

/-- The lower-case form of one character by the table, the character itself when it has none. -/
def lowerChar (c : Char) : Char :=
  match lowerRanges.find? fun r => r.first ≤ c.toNat && c.toNat ≤ r.last with
  | some r =>
    if (c.toNat - r.first) % r.step = 0 then Char.ofNat ((c.toNat : Int) + r.offset).toNat else c
  | none => c

/-- Lower, upper and title case letters. -/
def isCased : Char → Bool :=
  inRanges casedRanges

/-- Marks and signs that casing looks past. -/
def isCaseIgnorable : Char → Bool :=
  inRanges ignorableRanges

/-- The first character that casing does not look past is a cased one. -/
def meetsCased (cs : List Char) : Bool :=
  match cs.dropWhile isCaseIgnorable with
  | [] => false
  | c :: _ => isCased c

/-- Lowers a text. `before` holds the characters already passed, the nearest one first: a capital
    sigma is final when a cased letter stands before it and none after it. -/
def lowerFrom (before : List Char) : List Char → List Char
  | [] => []
  | c :: cs =>
    let form : List Char :=
      if c = 'Σ' then [if meetsCased before && !meetsCased cs then 'ς' else 'σ']
      else if c = 'İ' then ['i', '\u0307']
      else [lowerChar c]
    form ++ lowerFrom (c :: before) cs

/-- The text in lower case. -/
def lower (s : String) : String :=
  String.ofList (lowerFrom [] s.toList)

end UnitCalc.Text
