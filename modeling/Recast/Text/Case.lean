/-
  Text/Case.lean --- lower and upper case.

  A capital sigma at the end of a word becomes a final sigma; every other character is mapped on
  its own.
-/
import Recast.Text.CaseTable

set_option autoImplicit false

namespace Recast.Text

/-- The code point that a table of runs maps another one to. -/
def mapByRuns (runs : List CaseRun) (code : Nat) : Option Nat :=
  runs.findSome? fun (first, last, distance, offset) =>
    if first ≤ code ∧ code ≤ last ∧ (code - first) % distance = 0 then
      some ((code : Int) + offset).toNat
    else none

/-- The lower-case form of a character. -/
def lowerChar (c : Char) : List Char :=
  if c.toNat < 0x80 then [if 'A' ≤ c ∧ c ≤ 'Z' then Char.ofNat (c.toNat + 32) else c]
  else if c.toNat = 0x130 then ['i', Char.ofNat 0x307]
  else [((mapByRuns lowerRuns c.toNat).map Char.ofNat).getD c]

/-- The upper-case form of a character. -/
def upperChar (c : Char) : List Char :=
  if c.toNat < 0x80 then [if 'a' ≤ c ∧ c ≤ 'z' then Char.ofNat (c.toNat - 32) else c]
  else
    match upperSequences.find? fun entry => entry.1 == c.toNat with
    | some (_, codes) => codes.map Char.ofNat
    | none => [((mapByRuns upperRuns c.toNat).map Char.ofNat).getD c]

/-- Whether the first character that ends a word for the final-sigma rule has a case. -/
def nextIsCased (cs : List Char) : Bool :=
  match cs.dropWhile fun c => caseIgnorableTable.contains c.toNat with
  | c :: _ => casedTable.contains c.toNat
  | [] => false

/-- The lower-case form of the second list, which follows the first one (reversed) in the text. -/
def lowerAfter : List Char → List Char → List Char
  | _, [] => []
  | before, c :: cs =>
    if c = 'Σ' then
      (if nextIsCased before && !nextIsCased cs then 'ς' else 'σ') :: lowerAfter (c :: before) cs
    else lowerChar c ++ lowerAfter (c :: before) cs

/-- The lower-case form of a text. -/
def lower (cs : List Char) : List Char := lowerAfter [] cs

/-- The lower-case form of a string. -/
def lowered (s : String) : String := String.ofList (lower s.toList)

/-- Equality up to the case of ASCII letters. -/
def equalsAsciiCaseless (s t : String) : Bool :=
  s.toList.map Char.toLower == t.toList.map Char.toLower

end Recast.Text
