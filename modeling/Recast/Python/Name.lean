/-
  Python/Name.lean --- the names of a Python program.

  A name is known to consist of name characters, so whatever is built from names of a parsed file
  holds no blank, quote or delimiter.
-/
import Recast.Python.NameTable
import Recast.Text.Letter

set_option autoImplicit false

namespace Recast.Python

/-- A character that a name may begin with. -/
def isNameStart (c : Char) : Bool :=
  if c.toNat < 0x80 then Text.isAsciiLetter c || c == '_' else nameStartTable.contains c.toNat

/-- A character that a name may go on with. -/
def isNameRest (c : Char) : Bool :=
  if c.toNat < 0x80 then Text.isAsciiLetter c || Text.isAsciiDigit c || c == '_'
  else nameStartTable.contains c.toNat || nameRestTable.contains c.toNat

/-- Whether a text is a name. -/
def isName : List Char → Bool
  | [] => false
  | c :: cs => isNameStart c && cs.all isNameRest

/-- A name of a Python program. -/
structure Name where
  chars : List Char
  wellFormed : isName chars = true

namespace Name

instance : DecidableEq Name := fun a b =>
  decidable_of_iff (a.chars = b.chars) (by cases a; cases b; simp)

/-- The text of a name. -/
def text (n : Name) : String := String.ofList n.chars

/-- The longest name at the start of a text, and the text after it. -/
def leading? (cs : List Char) : Option (Name × List Char) :=
  match cs with
  | [] => none
  | c :: rest =>
    if h : isNameStart c = true then
      some (⟨c :: rest.takeWhile isNameRest, by simp [isName, h]⟩, rest.dropWhile isNameRest)
    else none

/-- Reading a name loses nothing. -/
theorem chars_append_of_leading? {cs rest : List Char} {n : Name}
    (h : leading? cs = some (n, rest)) : n.chars ++ rest = cs := by
  unfold leading? at h
  split at h
  · simp at h
  · split at h
    · simp only [Option.some.injEq, Prod.mk.injEq] at h
      obtain ⟨rfl, rfl⟩ := h
      simp
    · simp at h

end Name

end Recast.Python
