/-
  Text/RangeTable.lean --- sets of code points given as a sorted table of closed ranges.

  The properties of characters that the Unicode standard fixes by enumeration are kept as such
  tables, one module for each property.
-/

set_option autoImplicit false

namespace Recast.Text

/-- A set of code points, as closed ranges in ascending order. -/
abbrev RangeTable := List (Nat × Nat)

namespace RangeTable

/-- Whether some range of the table holds the code point. -/
def contains (table : RangeTable) (code : Nat) : Bool :=
  table.any fun range => range.1 ≤ code && code ≤ range.2

end RangeTable

end Recast.Text
