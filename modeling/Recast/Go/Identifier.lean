/-
  Go/Identifier.lean --- the Go names that Python names turn into.

  The parts of a Python name between underscores are joined, each with a capital letter in front.
  A name that Go itself uses gets an underscore at its end.
-/
import Recast.Text.Case
import Recast.Text.Search

set_option autoImplicit false

namespace Recast.Go

/-- The keywords of Go. -/
def keywords : List String :=
  ["break", "case", "chan", "const", "continue", "default", "defer", "else", "fallthrough", "for",
   "func", "go", "goto", "if", "import", "interface", "map", "package", "range", "return",
   "select", "struct", "switch", "type", "var"]

/-- Names that a Go file can use without declaring them, and that generated code relies on. -/
def predeclared : List String :=
  ["any", "append", "bool", "byte", "cap", "clear", "close", "comparable", "complex",
   "complex128", "complex64", "copy", "delete", "error", "errors", "false", "float32", "float64",
   "imag", "init", "int", "int16", "int32", "int64", "int8", "iota", "len", "make", "max", "min",
   "new", "nil", "panic", "print", "println", "real", "recover", "rune", "string", "true", "uint",
   "uint16", "uint32", "uint64", "uint8", "uintptr"]

/-- Whether Go uses a name itself. -/
def isReserved (name : List Char) : Bool :=
  keywords.any (·.toList == name) || predeclared.any (·.toList == name)

/-- The non-empty parts of a name between underscores. -/
def nameParts (name : List Char) : List (List Char) :=
  (Text.splitAtClass (· == '_') name).filter (!·.isEmpty)

/-- A part of a name with its first character in upper case. -/
def capitalised : List Char → List Char
  | [] => []
  | c :: cs => Text.upperChar c ++ cs

/-- A part of a name with its first character in lower case. -/
def uncapitalised : List Char → List Char
  | [] => []
  | c :: cs => Text.lowerChar c ++ cs

/-- The parts of a name joined. -/
def joinParts (exported : Bool) : List (List Char) → List Char
  | [] => []
  | first :: rest =>
    (if exported then capitalised first else uncapitalised first) ++ rest.flatMap capitalised

/-- The Go name of a Python name; `exported` tells that it begins with a capital letter. -/
def camelCase (name : List Char) (exported : Bool) : List Char :=
  let joined := joinParts exported (nameParts name)
  let named := if joined.isEmpty then ['x'] else joined
  if isReserved named then named ++ ['_'] else named

/-- The Go name of a Python declaration: exported unless the Python name is private. -/
def declarationName (name : String) : String :=
  String.ofList (camelCase name.toList (name.toList.head? != some '_'))

/-- The Go name of a Python parameter. -/
def localName (name : String) : String := String.ofList (camelCase name.toList false)

/-- A name without underscores and case, for comparison. -/
def comparable (name : List Char) : List Char :=
  (name.filter (· != '_')).flatMap Text.lowerChar

end Recast.Go
