/-!
# `UnitCalc.Text.Blank` — white space

The characters with the Unicode property `White_Space`, and texts made of nothing else.
-/

namespace UnitCalc.Text

/-- The character has the Unicode property `White_Space`. -/
def isBlank (c : Char) : Bool :=
  let n := c.toNat
  (9 ≤ n && n ≤ 13) || n == 0x20 || n == 0x85 || n == 0xa0 || n == 0x1680 ||
    (0x2000 ≤ n && n ≤ 0x200a) || n == 0x2028 || n == 0x2029 || n == 0x202f || n == 0x205f ||
    n == 0x3000

/-- The text is empty or holds white space only. -/
def isBlankText (s : String) : Bool :=
  s.toList.all isBlank

end UnitCalc.Text
