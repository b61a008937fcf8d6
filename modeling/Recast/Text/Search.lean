/-
  Text/Search.lean --- finding, cutting and replacing parts of a text.
-/

set_option autoImplicit false

namespace Recast.Text

/-- The text after a leading part. -/
def stripStart? (part : List Char) (cs : List Char) : Option (List Char) :=
  if part.isPrefixOf cs then some (cs.drop part.length) else none

/-- The text before a trailing part. -/
def stripEnd? (part : List Char) (cs : List Char) : Option (List Char) :=
  if part.isSuffixOf cs then some (cs.take (cs.length - part.length)) else none

/-- Whether a part occurs in a text. -/
def hasPart (part : List Char) : List Char → Bool
  | [] => part.isEmpty
  | c :: cs => part.isPrefixOf (c :: cs) || hasPart part cs

/-- Whether a string occurs in another one. -/
def occursIn (part s : String) : Bool := hasPart part.toList s.toList

/-- The pieces of a list between the items of a class. -/
def splitAtClass {α : Type} (p : α → Bool) : List α → List (List α)
  | [] => [[]]
  | c :: cs =>
    if p c then [] :: splitAtClass p cs
    else
      match splitAtClass p cs with
      | [] => [[c]]
      | piece :: rest => (c :: piece) :: rest

/-- What stands before and after the first occurrence of an item. -/
def cutAt? {α : Type} [BEq α] (c : α) (cs : List α) : Option (List α × List α) :=
  match cs.span (· != c) with
  | (_, []) => none
  | (before, _ :: after) => some (before, after)

/-- The text before and after the first occurrence of a non-empty part. -/
def cutAround? (part : List Char) : List Char → Option (List Char × List Char)
  | [] => none
  | c :: cs =>
    if part.isPrefixOf (c :: cs) then some ([], (c :: cs).drop part.length)
    else (cutAround? part cs).map fun (before, after) => (c :: before, after)

/-- The text with every occurrence of a non-empty part replaced, from the left. -/
def replaceFrom (part new : List Char) : Nat → List Char → List Char
  | _, [] => []
  | skip + 1, _ :: cs => replaceFrom part new skip cs
  | 0, c :: cs =>
    if part.isPrefixOf (c :: cs) then new ++ replaceFrom part new (part.length - 1) cs
    else c :: replaceFrom part new 0 cs

/-- The string with every occurrence of a non-empty part replaced, from the left. -/
def replaceAll (part new s : String) : String :=
  String.ofList (replaceFrom part.toList new.toList 0 s.toList)

end Recast.Text
