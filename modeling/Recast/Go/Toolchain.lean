/-
  Go/Toolchain.lean --- what the tools of a Go installation have to say about Go texts and packages.

  A toolchain answers four questions.  `Programs.toolchain` answers them by running two programs and
  reading what they print.
-/
import Recast.Go.Check
import Recast.Path
import Recast.Text.Lines
import Recast.Text.Search
import Recast.Files.Error

set_option autoImplicit false

namespace Recast.Go

/-- Why a tool gave no answer. -/
inductive ToolError where
  | noToolchain
  | command (program : Path) (error : FileError)
  | failed (reason : String)
  deriving DecidableEq

/-- The wording of the error. -/
def ToolError.message : ToolError → String
  | .noToolchain => "no Go toolchain is available"
  | .command program e => "failed to run " ++ program.text ++ ": " ++ e.message
  | .failed reason => reason

/-- What the formatter says about a text. -/
structure FormatCheck where
  errors : List String := []
  /-- Whether the text is not formatted as usual. -/
  unformatted : Bool := false
  deriving DecidableEq

/-- What the compiler says about a package. -/
structure Compilation where
  success : Bool := false
  diagnostics : List String := []
  deriving DecidableEq

/-- How many tests of a package passed and failed. -/
structure TestCount where
  passed : Nat := 0
  failed : Nat := 0
  deriving DecidableEq

/-- The share of the tests that passed, if there are tests. -/
def TestCount.passRate (t : TestCount) : Option Float :=
  if t.passed + t.failed = 0 then none
  else some (t.passed.toFloat / (t.passed + t.failed).toFloat)

/-- A toolchain. -/
structure Toolchain where
  name : String
  format : String → Except ToolError FormatCheck
  compile : Path → Except ToolError Compilation
  vet : Path → Except ToolError (List String)
  test : Path → Except ToolError TestCount

/-- The mark between the name of a Go file and a line number in a message. -/
def positionMark : List Char := ".go:".toList

/-- The number that a text writes in decimal digits, if it fits 64 bits. -/
def lineNumber? (cs : List Char) : Option Nat :=
  let digits := match cs with
    | '+' :: ds => ds
    | ds => ds
  if digits.isEmpty || !digits.all Char.isDigit then none
  else (String.ofList digits).toNat?.filter (· < 2 ^ 64)

/-- The line that a message is about; the first one if it names none. -/
def lineOf (text : String) : Nat :=
  match Text.cutAround? positionMark text.toList with
  | none => 1
  | some (_, after) => (lineNumber? (after.takeWhile (· != ':'))).getD 1

/-- A reversed file name without its extensions for Go files. -/
def dropExtensions : List Char → List Char
  | 'o' :: 'g' :: '.' :: rest => dropExtensions rest
  | cs => cs

/-- A file name without its extensions for Go files. -/
def withoutExtensions (fileName : List Char) : List Char :=
  (dropExtensions fileName.reverse).reverse

/-- The part of a path behind its last slash or backslash. -/
def lastPart (path : List Char) : List Char :=
  (path.reverse.takeWhile fun c => c != '/' && c != '\\').reverse

/-- Whether a message is about a file with a name. -/
def isAbout (fileName text : String) : Bool :=
  match Text.cutAround? positionMark text.toList with
  | none => false
  | some (before, _) => lastPart before == withoutExtensions fileName.toList

/-! ## Programs -/

/-- What a program printed, and whether it succeeded. -/
structure Printed where
  out : String := ""
  err : String := ""
  success : Bool := true
  deriving DecidableEq, Inhabited

/-- The two programs of a Go installation.  `run` runs a program with arguments on a text or in a
directory. -/
structure Programs where
  go : Path
  gofmt : Path
  run : Path → List String → RawText → Except FileError Printed

namespace Programs

/-- The lines of a text that point into a Go file. -/
def positionLines (text : String) : List String :=
  ((Text.stringLines text).map Text.trimmed).filter (Text.occursIn (String.ofList positionMark))

/-- The number of lines that begin with a mark. -/
def countLines (mark text : String) : Nat :=
  ((Text.stringLines text).filter fun line =>
    mark.toList.isPrefixOf (Text.trimStart line.toList)).length

/-- Runs a program. -/
def call (p : Programs) (program : Path) (arguments : List String) (subject : RawText) :
    Except ToolError Printed :=
  (p.run program arguments subject).mapError (.command program)

/-- Whether the compiler can be run. -/
def isInstalled (p : Programs) : Bool :=
  match p.run p.go ["version"] "" with
  | .ok printed => printed.success
  | .error _ => false

/-- What a failed or successful compilation printed. -/
def compilation (printed : Printed) : Compilation :=
  let found := positionLines printed.err
  ⟨printed.success,
    if !printed.success && found.isEmpty then [Text.trimmed printed.err] else found⟩

/-- The toolchain that the programs make up. -/
def toolchain (p : Programs) : Toolchain where
  name := "go"
  format text := do
    let printed ← p.call p.gofmt ["-l", "-e"] text
    return ⟨positionLines printed.err, printed.out != ""⟩
  compile directory := do
    return compilation (← p.call p.go ["build", "-o", "/dev/null", "."] directory.raw)
  vet directory := do
    return positionLines (← p.call p.go ["vet", "."] directory.raw).err
  test directory := do
    let printed ← p.call p.go ["test", "-v", "."] directory.raw
    return ⟨countLines "--- PASS" printed.out, countLines "--- FAIL" printed.out⟩

/-- The toolchain, if the programs are installed. -/
def detect (p : Programs) : Option Toolchain := if p.isInstalled then some p.toolchain else none

end Programs

end Recast.Go
