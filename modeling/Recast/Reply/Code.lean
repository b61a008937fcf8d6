/-
  Reply/Code.lean --- the shape of code taken out of an answer: no blank lines in front, no blanks
  behind, and one newline at the end.
-/
import Recast.Text.Blank
import Recast.Text.Lines
import Recast.Text.Letter

set_option autoImplicit false

namespace Recast.Reply

/-- The code without blank lines in front and blanks behind, ended by a newline; nothing if the code
is blank. -/
def tidy (code : List Char) : List Char :=
  let lines := (Text.linesWithEnds code).dropWhile Text.allBlank
  match Text.trimEnd lines.flatten with
  | [] => []
  | trimmed => trimmed ++ ['\n']

/-- A character that a Go statement may end with. -/
def endsStatement (c : Char) : Bool :=
  Text.isAlphanumeric c || "_\x7d)];\"'\x60".toList.contains c

/-- Whether a line ends like a Go statement and is no comment. -/
def isCodeLine (line : List Char) : Bool :=
  let trimmed := Text.trim line
  !"//".toList.isPrefixOf trimmed && trimmed.getLast?.any endsStatement

/-- The code in an answer without fences: everything up to the last line that ends like a Go
statement. -/
def unfencedCode (text : List Char) : List Char :=
  let kept := ((Text.lines text).reverse.dropWhile fun line => !isCodeLine line).reverse
  tidy ("\n".toList.intercalate kept)

end Recast.Reply
