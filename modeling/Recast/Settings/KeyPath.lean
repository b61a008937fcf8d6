/-
  Settings/KeyPath.lean --- places inside settings, and putting a value there.

  A place is a key of the settings followed by names after dots and by indices in brackets.
  A value that stands on the way and is of the wrong kind gives way to an empty one of the right
  kind, so putting never fails.
-/
import Recast.Decimal.Reader
import Recast.Json.Basic
import Recast.Text.Letter

set_option autoImplicit false

namespace Recast.Settings

/-- A step from a value to one inside it. -/
inductive KeyPath.Step where
  | member (name : String)
  /-- An item of a list; a negative index counts from the end. -/
  | item (index : Int)
  deriving DecidableEq, Inhabited

/-- A place inside settings. -/
structure KeyPath where
  root : String
  steps : List KeyPath.Step := []
  deriving DecidableEq, Inhabited

namespace KeyPath

/-! ### Reading a place -/

/-- Whether a character may stand in a name. -/
def isNameChar (c : Char) : Bool :=
  Text.isAsciiLetter c || Text.isAsciiDigit c || c == '_' || c == '-'

/-- A name at the start of a text, which must not be empty, and the rest. -/
def name? (cs : List Char) : Option (String × List Char) :=
  match cs.takeWhile isNameChar with
  | [] => none
  | name => some (String.ofList name, cs.dropWhile isNameChar)

/-- Whether a character may stand around an index. -/
def isPadding (c : Char) : Bool := c == ' ' || c == '\t'

/-- The number that digits in front of a bracket write, and what follows the bracket. -/
def digits? (cs : List Char) : Option (Nat × List Char) :=
  match cs.takeWhile Text.isAsciiDigit, (cs.dropWhile Text.isAsciiDigit).dropWhile isPadding with
  | [], _ => none
  | ds, ']' :: rest => some (Text.digitsValue ds, rest)
  | _, _ => none

/-- An index of at most 64 bits in front of a bracket, and what follows the bracket. -/
def index? (cs : List Char) : Option (Int × List Char) :=
  match cs.dropWhile isPadding with
  | '-' :: rest => (digits? rest).bind fun (n, rest) =>
      if n ≤ 2 ^ 63 then some (-n, rest) else none
  | cs => (digits? cs).bind fun (n, rest) => if n < 2 ^ 63 then some ((n : Int), rest) else none

/-- The steps that a whole text writes; `fuel` bounds their number. -/
def steps? : Nat → List Char → Option (List Step)
  | _, [] => some []
  | 0, _ => none
  | fuel + 1, '.' :: cs => do
    let (name, rest) ← name? cs
    return .member name :: (← steps? fuel rest)
  | fuel + 1, '[' :: cs => do
    let (index, rest) ← index? cs
    return .item index :: (← steps? fuel rest)
  | _ + 1, _ => none

/-- The place that a text writes. -/
def parse? (text : String) : Option KeyPath := do
  let (root, rest) ← name? text.toList
  return ⟨root, ← steps? rest.length rest⟩

/-- The place that a key of a file stands for.  One that does not write a place stands for itself.
-/
def ofKey (key : String) : KeyPath := (parse? key).getD ⟨key, []⟩

/-! ### Putting a value -/

/-- Members with the value of a name changed; one that is missing counts as `null`. -/
def alterMember (name : String) (f : Json → Json) : List (String × Json) → List (String × Json)
  | [] => [(name, f .null)]
  | (k, v) :: ms => if k = name then (k, f v) :: ms else (k, v) :: alterMember name f ms

/-- Items with the one at an index changed.  The list grows by `null` at the end that is too short.
-/
def alterItem (index : Int) (f : Json → Json) (items : List Json) : List Json :=
  match index with
  | .ofNat n => (items ++ List.replicate (n + 1 - items.length) Json.null).modify n f
  | .negSucc n =>
    (List.replicate (n + 1 - items.length) Json.null ++ items).modify (items.length - (n + 1)) f

/-- A value with the one at the end of some steps changed. -/
def alterAt (f : Json → Json) : List Step → Json → Json
  | [], v => f v
  | .member name :: rest, v =>
    .object (alterMember name (alterAt f rest) (v.members?.getD []))
  | .item index :: rest, v => .array (alterItem index (alterAt f rest) (v.items?.getD []))

mutual

/-- A value laid over an old one: a table keeps the old members that it does not name. -/
def overlay : Json → Json → Json
  | .object ms, old => .object (overlayMembers ms (old.members?.getD []))
  | v, _ => v

/-- The members of a table laid over old ones. -/
def overlayMembers : List (String × Json) → List (String × Json) → List (String × Json)
  | [], old => old
  | (name, v) :: ms, old => overlayMembers ms (alterMember name (overlay v) old)

end

/-- Settings with a value laid over what is at a place. -/
def put (place : KeyPath) (v settings : Json) : Json :=
  alterAt (overlay v) (.member place.root :: place.steps) settings

end KeyPath

end Recast.Settings
