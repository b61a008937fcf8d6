/-
  Assessment/Coverage.lean --- what can be said about a translation without any tools: how many of
  the Python declarations it takes up, and how much unfinished work it admits to.
-/
import Recast.Go.Identifier
import Recast.Outline.Basic
import Recast.Text.Letter

set_option autoImplicit false

namespace Recast.Assessment

/-- The words of a Go text. -/
def words (go : List Char) : List (List Char) :=
  (Text.splitAtClass (fun c => !Text.isWordChar c) go).filter (!·.isEmpty)

/-- Whether a name begins and ends with two underscores. -/
def isSpecial (name : String) : Bool :=
  "__".toList.isPrefixOf name.toList && "__".toList.isSuffixOf name.toList

/-- The Go name a function should have; a special function other than a constructor has none. -/
def expectedName (f : FunctionDecl) : Option String :=
  match f.owner with
  | some className =>
    if f.name = "__init__" then some ("New" ++ Go.declarationName className)
    else if isSpecial f.name then none
    else some (Go.declarationName f.name)
  | none => if isSpecial f.name then none else some (Go.declarationName f.name)

/-- The Go names that a translation should declare. -/
def expectedNames (o : Outline) : List String :=
  o.classes.map (fun c => Go.declarationName c.name) ++ o.functions.filterMap expectedName

/-- The expected names that are words of a Go text, up to case and underscores. -/
def foundNames (o : Outline) (go : List Char) : List String :=
  let present := (words go).map Go.comparable
  (expectedNames o).filter fun name => present.contains (Go.comparable name.toList)

/-- The share of the declarations of a file that a translation takes up; all if there are none. -/
def coverage (o : Outline) (go : String) : Float :=
  let expected := (expectedNames o).length
  if expected = 0 then 1.0
  else (foundNames o go.toList).length.toFloat / expected.toFloat

/-- Words that admit unfinished work. -/
def unfinishedMarkers : List String := ["TODO", "FIXME", "not implemented"]

/-- How often a part occurs in a text, without overlaps. -/
def occurrences (part : List Char) : Nat → List Char → Nat
  | _, [] => 0
  | skip + 1, _ :: cs => occurrences part skip cs
  | 0, c :: cs =>
    if part.isPrefixOf (c :: cs) then 1 + occurrences part (part.length - 1) cs
    else occurrences part 0 cs

/-- The number of admissions of unfinished work. -/
def unfinished (go : String) : Nat :=
  (unfinishedMarkers.map fun marker => occurrences marker.toList 0 go.toList).foldr (· + ·) 0

/-- One less a tenth for each complaint and each admission of unfinished work, but not below zero.
-/
def lintScore (complaints : Nat) (go : String) : Float :=
  let score := 1.0 - 0.1 * (complaints + unfinished go).toFloat
  if score > 0.0 then score else 0.0

end Recast.Assessment
