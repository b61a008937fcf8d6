/-
  Go/Check.lean --- the check of a Go text that needs no tools: a package clause comes first,
  delimiters are balanced outside literals and comments, and every literal and comment ends.
-/
import Recast.Go.Lexer

set_option autoImplicit false

namespace Recast.Go

/-- The outcome of a check. -/
structure CheckResult where
  /-- The name in the package clause. -/
  package : Option String := none
  diagnostics : List Diagnostic := []
  deriving DecidableEq

namespace CheckResult

/-- A text is valid if nothing was found. -/
def valid (r : CheckResult) : Bool := r.diagnostics.isEmpty

/-- The outcome with one more finding. -/
def add (r : CheckResult) (line : Nat) (fault : Fault) : CheckResult :=
  { r with diagnostics := r.diagnostics ++ [⟨line, fault⟩] }

end CheckResult

/-- Checks a text. -/
def check (text : List Char) : CheckResult :=
  if Text.allBlank text then { diagnostics := [⟨1, .emptyFile⟩] }
  else
    let l := Lexer.feed {} text
    match l.packageName with
    | none => { diagnostics := ⟨1, .noPackage⟩ :: l.finish }
    | some name => { package := some (String.ofList name), diagnostics := l.finish }

/-- Checks a string. -/
def checkString (text : String) : CheckResult := check text.toList

end Recast.Go
