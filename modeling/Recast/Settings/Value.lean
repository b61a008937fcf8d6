/-
  Settings/Value.lean --- reading settings out of values.

  A setting is read leniently: a number may be written as a text, a truth value as a word or as a
  number.  What stands in a file, on the command line or in a default is a JSON value here; a whole
  number has 64 bits with a sign, every other number is a fraction.
-/
import Recast.Decimal.Reader
import Recast.Decimal.Shortest
import Recast.Json.Basic
import Recast.Text.Case
import Recast.Text.Letter

set_option autoImplicit false

namespace Recast.Settings

/-- A number as settings have it. -/
def signed : Json.Number → Json.Number
  | .whole i => if -2 ^ 63 ≤ i ∧ i < 2 ^ 63 then .whole i else .real (.ofInt i)
  | .real v => .real v

/-- The truth value of a word, which is given in lower case. -/
def truthOfWord? (word : String) : Option Bool :=
  if ["true", "on", "yes"].contains word then some true
  else if ["false", "off", "no"].contains word then some false
  else none

/-- The truth value that a setting gives. -/
def bool? : Json → Option Bool
  | .bool b => some b
  | .number n => match signed n with
    | .whole i => some (i != 0)
    | .real v => some (v != 0.0)
  | .string s =>
    let word := Text.lowered s
    if word = "1" then some true else if word = "0" then some false else truthOfWord? word
  | _ => none

/-- The natural number of at most 64 bits that decimal digits write, a plus sign in front of them or
not. -/
def digits? (s : String) : Option Nat :=
  let digits := match s.toList with
    | '+' :: ds => ds
    | ds => ds
  if digits.isEmpty || !digits.all Text.isAsciiDigit then none
  else some (Text.digitsValue digits) |>.filter (· < 2 ^ 64)

/-- The natural number of at most 64 bits that a setting gives.  A fraction is rounded. -/
def nat? : Json → Option Nat
  | .bool b => some b.toNat
  | .number n => match signed n with
    | .whole (.ofNat n) => some n
    | .whole _ => none
    | .real v => some v.round.toUInt64.toNat
  | .string s => match truthOfWord? (Text.lowered s) with
    | some b => some b.toNat
    | none => digits? s
  | _ => none

/-- The natural number of at most 32 bits that a setting gives. -/
def word? (v : Json) : Option UInt32 := ((nat? v).filter (· < 2 ^ 32)).map Nat.toUInt32

/-- The number that a setting gives. -/
def float? : Json → Option Float
  | .bool b => some (if b then 1.0 else 0.0)
  | .number n => match signed n with
    | .whole i => some (.ofInt i)
    | .real v => some v
  | .string s => match truthOfWord? (Text.lowered s) with
    | some b => some (if b then 1.0 else 0.0)
    | none => Decimal.float? s
  | _ => none

/-- The text that a setting gives. -/
def text? : Json → Option String
  | .bool b => some (if b then "true" else "false")
  | .number n => match signed n with
    | .whole i => some (toString i)
    | .real v => some (Decimal.render v)
  | .string s => some s
  | _ => none

/-- The list that a setting gives. -/
def listOf? {α : Type} (read : Json → Option α) : Json → Option (List α)
  | .array xs => xs.mapM read
  | _ => none

/-- The choice that a setting gives by its name, or as a table with the name as its only key. -/
def choice? {α : Type} (named : String → Option α) : Json → Option α
  | .string s => named s
  | .object ms => match (ms.map (·.1)).eraseDups with
    | [name] => named name
    | _ => none
  | _ => none

/-- The value of a member; of a repeated name the last one counts. -/
def member? (members : List (String × Json)) (name : String) : Option Json :=
  (members.reverse.find? fun m => m.1 == name).map (·.2)

/-- A look-up of the fields of a group of settings, which is a table or a list of the fields in
their order. -/
def group? (fields : List String) : Json → Option (String → Option Json)
  | .object members => some (member? members)
  | .array items => some fun name => items[fields.idxOf name]?
  | _ => none

/-- The value of a field; a missing field has a default. -/
def field? {α : Type} (group : String → Option Json) (name : String) (read : Json → Option α)
    (default : α) : Option α :=
  match group name with
  | none => some default
  | some v => read v

end Recast.Settings
