/-
  Go/Package.lean --- giving a Go text another package name.
-/
import Recast.Go.Lexer
import Recast.Text.Lines
import Recast.Text.Search

set_option autoImplicit false

namespace Recast.Go

/-- Whether a line looks like a package clause. -/
def isPackageClause (line : List Char) : Bool :=
  match Text.stripStart? "package".toList (Text.trimStart line) with
  | some (c :: _) => c == ' ' || c == '\t'
  | _ => false

/-- A package clause that ends like the given line. -/
def packageClause (package line : List Char) : List Char :=
  "package ".toList ++ package ++ if line.getLast? = some '\n' then ['\n'] else []

/-- The lines with the first package clause that stands in code outside delimiters replaced.  The
lexer is that of the lines before. -/
def retargetLines (package : List Char) : Lexer → List (List Char) → List Char
  | _, [] => []
  | l, line :: rest =>
    if l.balanced && !l.opened && isPackageClause line then
      packageClause package line ++ rest.flatten
    else line ++ retargetLines package (l.feed line) rest

/-- The text with the name in its package clause replaced; a text without one stays as it is. -/
def retarget (package text : List Char) : List Char :=
  retargetLines package {} (Text.linesWithEnds text)

/-- The string with the name in its package clause replaced. -/
def retargetString (text package : String) : String :=
  String.ofList (retarget package.toList text.toList)

end Recast.Go
