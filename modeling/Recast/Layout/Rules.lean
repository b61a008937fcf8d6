/-
  Layout/Rules.lean --- which Go package a file belongs to, and what its Go file is called.
-/
import Recast.Log
import Recast.Path
import Recast.Text.Blank
import Recast.Text.Case
import Recast.Text.Letter

set_option autoImplicit false

namespace Recast.Layout

/-- Files whose names hold one of the keywords belong to the module. -/
structure Rule where
  keywords : List String
  module : String
  deriving DecidableEq, Inhabited

/-- How files are laid out. -/
structure Settings where
  /-- The rules in the order in which they are tried. -/
  rules : List Rule :=
    [⟨["invoice"], "invoice"⟩, ⟨["ledger", "journal"], "ledger"⟩, ⟨["tax"], "tax"⟩,
     ⟨["party"], "party"⟩, ⟨["payment"], "payment"⟩]
  /-- The module of files that no rule matches. -/
  defaultModule : String := "common"
  /-- The module path of the output as a whole. -/
  goModulePath : String := "modernized"
  deriving DecidableEq, Inhabited

/-- An ASCII letter in lower case or an underscore. -/
def isPackageStart (c : Char) : Bool := ('a' ≤ c && c ≤ 'z') || c == '_'

/-- Whether a name is fit for a Go package. -/
def isPackageName (name : String) : Bool :=
  match name.toList with
  | [] => false
  | c :: cs => isPackageStart c && cs.all fun c => isPackageStart c || Text.isAsciiDigit c

/-- What is odd about the settings. -/
def Settings.warnings (s : Settings) : Log :=
  ((s.rules.map (·.module) ++ [s.defaultModule]).filter fun m => !isPackageName m).map (fun m =>
    .warn ("tools.organize_output: \x60" ++ m ++ "\x60 is not a valid Go package name")) ++
  (if s.rules.any (·.keywords.isEmpty) then
    [.warn "tools.organize_output: a rule without keywords never matches"] else [])

/-- Whether a rule matches a file name in lower case. -/
def Rule.isMatch (r : Rule) (low : List Char) : Bool :=
  r.keywords.any fun k => Text.hasPart (Text.lower k.toList) low

/-- The module of the first rule that matches a file name, up to case. -/
def Settings.classify (s : Settings) (fileName : String) : String :=
  match s.rules.find? fun r => r.isMatch (Text.lower fileName.toList) with
  | some r => r.module
  | none => s.defaultModule

/-- A text without underscores at its ends. -/
def trimUnderscores (cs : List Char) : List Char :=
  Text.dropEnd (· == '_') (Text.dropStart (· == '_') cs)

/-- The stem of the Go file for a Python file. -/
def goStem (fileName : String) : String :=
  match trimUnderscores (Path.ofString fileName).stem.toList with
  | [] => "module"
  | stem => String.ofList stem

/-- A Go file name; one that Go would take for a test gets another ending. -/
def withExtension (stem : String) : String :=
  if "_test".toList.isSuffixOf stem.toList then stem ++ "_py.go" else stem ++ ".go"

/-- The name of the Go file for a Python file. -/
def goFileName (fileName : String) : String := withExtension (goStem fileName)

end Recast.Layout
