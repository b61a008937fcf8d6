/-
  Json/Basic.lean --- JSON values.

  Objects keep their members in the order of the text, repeated names included, so that a reader
  of a particular format can decide what a repetition means.
-/
import Recast.Instances

set_option autoImplicit false

namespace Recast

/-- A JSON number: a whole number of at most 64 bits is kept exact, every other number is rounded
to a binary fraction. -/
inductive Json.Number where
  | whole (value : Int)
  | real (value : Float)

/-- A JSON value. -/
inductive Json where
  | null
  | bool (value : Bool)
  | number (value : Json.Number)
  | string (value : String)
  | array (items : List Json)
  | object (members : List (String × Json))

namespace Json

instance : Inhabited Json := ⟨.null⟩

instance : Coe String Json := ⟨.string⟩
instance : Coe Bool Json := ⟨.bool⟩

/-- A whole number as a JSON value. -/
def ofInt (value : Int) : Json := .number (.whole value)

/-- A natural number as a JSON value. -/
def ofNat (value : Nat) : Json := ofInt value

instance : Coe Nat Json := ⟨ofNat⟩

/-- A fraction as a JSON value. -/
def ofFloat (value : Float) : Json := .number (.real value)

/-- The list of the values of a list. -/
def ofList {α : Type} (f : α → Json) (xs : List α) : Json := .array (xs.map f)

/-- A list of texts. -/
def strings (xs : List String) : Json := .ofList .string xs

/-- `null` for an absent value. -/
def ofOption {α : Type} (f : α → Json) : Option α → Json
  | none => .null
  | some a => f a

/-- The value of the first member with a name. -/
def get? (name : String) : Json → Option Json
  | .object members => (members.find? fun member => member.1 == name).map (·.2)
  | _ => none

/-- The string in a value. -/
def string? : Json → Option String
  | .string s => some s
  | _ => none

/-- The truth value in a value. -/
def bool? : Json → Option Bool
  | .bool b => some b
  | _ => none

/-- The whole number in a value. -/
def int? : Json → Option Int
  | .number (.whole i) => some i
  | _ => none

/-- The natural number in a value. -/
def nat? (j : Json) : Option Nat :=
  match j.int? with
  | some (.ofNat n) => some n
  | _ => none

/-- The items of an array. -/
def items? : Json → Option (List Json)
  | .array xs => some xs
  | _ => none

/-- The members of an object. -/
def members? : Json → Option (List (String × Json))
  | .object ms => some ms
  | _ => none

end Json

end Recast
