/-
  Json/Record.lean --- reading a JSON value as a record with named fields.

  A record is an object whose members are fields, in any order and with unknown members in between,
  or an array of the fields in their order.  A field that occurs twice is refused.
-/
import Recast.Json.Basic
import Recast.Table

set_option autoImplicit false

namespace Recast.Json

/-- What becomes of a field that is not there. -/
inductive Absence where
  /-- The record is refused. -/
  | refused
  /-- An object may leave it out, an array may not. -/
  | null
  /-- It may be left out. -/
  | default
  deriving DecidableEq

/-- A field of a record. -/
structure Field where
  name : String
  absence : Absence := .refused

namespace Field

/-- The values of a member name. -/
def occurrences (name : String) (members : List (String × Json)) : List Json :=
  (members.filter fun m => m.1 == name).map (·.2)

/-- The value of a field among the members of an object; nothing if the field may be missing. -/
def ofMembers? (members : List (String × Json)) (f : Field) : Option (Option Json) :=
  match occurrences f.name members with
  | [] => if f.absence = .refused then none else some none
  | [v] => some (some v)
  | _ => none

/-- The values of fields that the items of an array give in order. -/
def ofItems? : List Field → List Json → Option (List (Option Json))
  | [], [] => some []
  | [], _ :: _ => none
  | f :: fs, [] => if f.absence = .default then (ofItems? fs []).map (none :: ·) else none
  | _ :: fs, x :: xs => (ofItems? fs xs).map (some x :: ·)

end Field

/-- The values of the fields of a record, in their order. -/
def record? (fields : List Field) : Json → Option (List (Option Json))
  | .object members => fields.mapM (Field.ofMembers? members)
  | .array items => Field.ofItems? fields items
  | _ => none

/-- The value of a field that `null` and absence leave empty. -/
def optional? {α : Type} (read : Json → Option α) : Option Json → Option (Option α)
  | none => some none
  | some .null => some none
  | some v => (read v).map some

/-- The values of an array. -/
def listOf? {α : Type} (read : Json → Option α) : Json → Option (List α)
  | .array xs => xs.mapM read
  | _ => none

/-- The values of an object by their names; of a repeated name the last one counts. -/
def tableOf? {α : Type} (read : Json → Option α) : Json → Option (Table String α)
  | .object ms => (ms.mapM fun m => (read m.2).map fun a => (m.1, a)).map Table.ofList
  | _ => none

/-- A whole number from zero to below a bound. -/
def below? (bound : Nat) (j : Json) : Option Nat := j.nat?.filter (· < bound)

/-- A whole number of at most 64 bits. -/
def word? (j : Json) : Option Nat := below? (2 ^ 64) j

end Recast.Json
