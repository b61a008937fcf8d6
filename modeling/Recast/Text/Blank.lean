/-
  Text/Blank.lean --- white space and the removal of it at the ends of a text.

  A trimmed text neither begins nor ends with a blank, and trimming takes away nothing else.
-/

set_option autoImplicit false

namespace Recast.Text

/-- The characters with the Unicode property White_Space. -/
def isBlank (c : Char) : Bool :=
  let code := c.toNat
  if code < 0x80 then code == 0x20 || (9 ≤ code && code ≤ 13)
  else
    code == 0x85 || code == 0xA0 || code == 0x1680 || (0x2000 ≤ code && code ≤ 0x200A) ||
      code == 0x2028 || code == 0x2029 || code == 0x202F || code == 0x205F || code == 0x3000

/-- The text without the leading characters of a class. -/
def dropStart (p : Char → Bool) (cs : List Char) : List Char := cs.dropWhile p

/-- The text without the trailing characters of a class. -/
def dropEnd (p : Char → Bool) (cs : List Char) : List Char :=
  (cs.reverse.dropWhile p).reverse

/-- The text without leading blanks. -/
def trimStart (cs : List Char) : List Char := dropStart isBlank cs

/-- The text without trailing blanks. -/
def trimEnd (cs : List Char) : List Char := dropEnd isBlank cs

/-- The text without leading and trailing blanks. -/
def trim (cs : List Char) : List Char := trimEnd (trimStart cs)

/-- Whether a text holds nothing but blanks. -/
def allBlank (cs : List Char) : Bool := cs.all isBlank

/-- The string without leading and trailing blanks. -/
def trimmed (s : String) : String := String.ofList (trim s.toList)

/-- Trimming the start removes exactly a run of blanks. -/
theorem trimStart_append_blanks (cs : List Char) :
    cs.takeWhile isBlank ++ trimStart cs = cs := List.takeWhile_append_dropWhile

end Recast.Text
