import UnitCalc.Text.HiddenTable
import UnitCalc.Text.Ranges

/-!
# `UnitCalc.Text.Quoted` — paths in messages

A path is shown between double quotes, so that a blank at its end or a line break inside it can be
seen. What has no visible form of its own is shown by its code point.
-/

namespace UnitCalc.Text

/-- The character cannot be seen when it stands alone. -/
def isHidden : Char → Bool :=
  inRanges hiddenRanges

/-- A character between double quotes: quotes, backslashes and hidden characters are escaped. -/
def quotedChar (c : Char) : List Char :=
  match c with
  | '"' => ['\\', '"']
  | '\\' => ['\\', '\\']
  | '\n' => ['\\', 'n']
  | '\r' => ['\\', 'r']
  | '\t' => ['\\', 't']
  | '\x00' => ['\\', '0']
  | c =>
    if isHidden c then ['\\', 'u', '\x7b'] ++ Nat.toDigits 16 c.toNat ++ ['\x7d'] else [c]

/-- A text between double quotes. -/
def quoted (s : String) : String :=
  String.ofList ('"' :: s.toList.flatMap quotedChar ++ ['"'])

end UnitCalc.Text
