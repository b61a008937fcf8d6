/-
  Json/Printer.lean --- writing a JSON value without blanks.
-/
import Recast.Json.Basic
import Recast.Text.Digit

set_option autoImplicit false

namespace Recast.Json

/-- A character as it stands inside a quoted string. -/
def escapeChar (c : Char) : List Char :=
  match c with
  | '"' => ['\\', '"']
  | '\\' => ['\\', '\\']
  | '\n' => ['\\', 'n']
  | '\r' => ['\\', 'r']
  | '\t' => ['\\', 't']
  | '\x08' => ['\\', 'b']
  | '\x0c' => ['\\', 'f']
  | c =>
    if c < ' ' then
      ['\\', 'u', '0', '0', Text.hexDigit (c.toNat / 16), Text.hexDigit (c.toNat % 16)]
    else [c]

/-- A string in quotes. -/
def quote (s : String) : String :=
  String.ofList ('"' :: s.toList.flatMap escapeChar ++ ['"'])

/-- A number.  A binary fraction is written by `real`. -/
def Number.render (real : Float → String) : Number → String
  | .whole i => toString i
  | .real v => real v

mutual

/-- The text of a value; `real` writes binary fractions. -/
def render (real : Float → String) : Json → String
  | .null => "null"
  | .bool true => "true"
  | .bool false => "false"
  | .number n => n.render real
  | .string s => quote s
  | .array xs => "[" ++ ",".intercalate (renderItems real xs) ++ "]"
  | .object ms => "\x7b" ++ ",".intercalate (renderMembers real ms) ++ "\x7d"

/-- The texts of the items of an array. -/
def renderItems (real : Float → String) : List Json → List String
  | [] => []
  | x :: xs => render real x :: renderItems real xs

/-- The texts of the members of an object. -/
def renderMembers (real : Float → String) : List (String × Json) → List String
  | [] => []
  | (name, v) :: ms => (quote name ++ ":" ++ render real v) :: renderMembers real ms

end

end Recast.Json
