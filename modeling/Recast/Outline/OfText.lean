/-
  Outline/OfText.lean --- the outline of a Python text or file.
-/
import Recast.Outline.OfTree
import Recast.Python.Grammar
import Recast.Text.Utf8

set_option autoImplicit false

namespace Recast

/-- Why a file has no outline. -/
inductive SyntaxError where
  /-- The bytes from the given line on are no text. -/
  | notUtf8 (line : Nat)
  /-- The text is no Python file. -/
  | malformed
  deriving DecidableEq

namespace SyntaxError

/-- The wording of the error. -/
def message : SyntaxError → String
  | .notUtf8 line => "syntax error at line " ++ toString line ++
      ", column 1: file is not valid UTF-8"
  | .malformed => "syntax error"

end SyntaxError

namespace Outline

/-- The outline of a text. -/
def ofText (text : List Char) : Except SyntaxError Outline :=
  match Python.parse? text with
  | some body => .ok (ofTree (Text.lines text) body)
  | none => .error .malformed

/-- The outline of a file. -/
def ofBytes (content : ByteArray) : Except SyntaxError Outline :=
  match Text.Utf8.decode? content with
  | some text => ofText text.toList
  | none => .error (.notUtf8 ((Text.Utf8.readablePart content).count '\n' + 1))

end Outline

end Recast
