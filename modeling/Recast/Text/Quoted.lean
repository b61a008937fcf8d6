/-
  Text/Quoted.lean --- a text between quotes, as messages show it.

  A character without a glyph of its own, or one that attaches to the character before it, is
  written as its code point.
-/
import Recast.Text.GraphicTable

set_option autoImplicit false

namespace Recast.Text

/-- Whether a character is shown as it is. -/
def isGraphic (c : Char) : Bool :=
  if c.toNat < 0x80 then 0x20 ≤ c.toNat && c.toNat != 0x7F
  else !unprintableTable.contains c.toNat && !graphemeExtendTable.contains c.toNat

/-- A character as a quoted text shows it. -/
def quotedChar (c : Char) : List Char :=
  if c == '"' || c == '\\' then ['\\', c]
  else if c == '\n' then ['\\', 'n']
  else if c == '\r' then ['\\', 'r']
  else if c == '\t' then ['\\', 't']
  else if c.toNat = 0 then ['\\', '0']
  else if isGraphic c then [c]
  else ['\\', 'u', '{'] ++ Nat.toDigits 16 c.toNat ++ ['}']

/-- A text between quotes. -/
def quoted (s : String) : String :=
  String.ofList ('"' :: s.toList.flatMap quotedChar ++ ['"'])

end Recast.Text
