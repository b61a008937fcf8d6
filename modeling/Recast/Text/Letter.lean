/-
  Text/Letter.lean --- letters and digits in the sense of the Unicode standard.
-/
import Recast.Text.LetterTable

set_option autoImplicit false

namespace Recast.Text

/-- An ASCII letter. -/
def isAsciiLetter (c : Char) : Bool :=
  ('a' ≤ c && c ≤ 'z') || ('A' ≤ c && c ≤ 'Z')

/-- An ASCII digit. -/
def isAsciiDigit (c : Char) : Bool := '0' ≤ c && c ≤ '9'

/-- A character with the property Alphabetic. -/
def isLetter (c : Char) : Bool :=
  if c.toNat < 0x80 then isAsciiLetter c else alphabeticTable.contains c.toNat

/-- A letter, or a character of the general category Number. -/
def isAlphanumeric (c : Char) : Bool :=
  if c.toNat < 0x80 then isAsciiLetter c || isAsciiDigit c
  else alphabeticTable.contains c.toNat || numericTable.contains c.toNat

/-- The characters that words of a program text consist of. -/
def isWordChar (c : Char) : Bool := c == '_' || isAlphanumeric c

theorem isAlphanumeric_of_isLetter {c : Char} (h : isLetter c = true) :
    isAlphanumeric c = true := by
  unfold isLetter at h
  unfold isAlphanumeric
  split <;> simp_all

end Recast.Text
