/-
  Python/Grammar.lean --- reading a whole Python file.

  The nesting of forms in one another is bounded by the length of the text, because each form reads
  at least one character before it asks for a nested one.
-/
import Recast.Python.Statement

set_option autoImplicit false

namespace Recast.Python

/-- How a form is read, given how the forms nested in it are. -/
def production (nested : Nested) : (α : Type) → Goal α → Parser α
  | _, .expression f => expression nested f
  | _, .term f => term nested f
  | _, .operand f => operand nested f
  | _, .assigned => assigned nested
  | _, .hint f => hint nested f
  | _, .field => replacementField nested
  | _, .pattern => pattern nested
  | _, .suite => suite nested

/-- Reads a form in which other forms nest at most `depth` deep. -/
def read : Nat → Nested
  | 0 => fun _ _ => failure
  | depth + 1 => fun α goal => production (read depth) α goal

/-- The statements of a file; nothing if the text is no Python file. -/
def parse? (text : List Char) : Option (List Stmt) :=
  match (statements (read (text.length + 1))).run (Cursor.start text) with
  | some (body, c) =>
    match (c.ahead { text := true }).next with
    | .finish => some body
    | _ => none
  | none => none

end Recast.Python
