/-
  Assessment/Validator.lean --- checking translations, with the tools of a Go installation where
  there are any.
-/
import Recast.Assessment.Confidence
import Recast.Assessment.Coverage
import Recast.Go.Toolchain

set_option autoImplicit false

namespace Recast.Assessment

/-- The settings of the checks. -/
structure Settings where
  useToolchain : Bool := true
  go : String := "go"
  gofmt : String := "gofmt"
  /-- Whether the tests of packages are run. -/
  runTests : Bool := false
  weights : Weights Float := .usual
  thresholds : Thresholds Float := .usual

/-- What is odd about the settings. -/
def Settings.warnings (s : Settings) : Log := s.weights.warnings ++ s.thresholds.warnings

/-- A way to check translations. -/
structure Validator where
  toolchain : Option Go.Toolchain := none
  runTests : Bool := false
  weights : Weights Float := .usual
  thresholds : Thresholds Float := .usual

/-- What the tools said about a package; a check that did not run says nothing. -/
structure ModuleCheck where
  compilation : Option Go.Compilation := none
  complaints : Option (List String) := none
  tests : Option Go.TestCount := none
  deriving DecidableEq

/-- What a translation was found to be worth. -/
structure Validation where
  signals : Signals Float
  confidence : Confidence

/-- The number of complaints about a file. -/
def ModuleCheck.complaintsAbout (m : ModuleCheck) (fileName : String) : Option Nat :=
  m.complaints.map fun lines => (lines.filter (Go.isAbout fileName)).length

namespace Validator

/-- A validator with the given toolchain. -/
def ofSettings (s : Settings) (toolchain : Option Go.Toolchain) : Validator :=
  ⟨toolchain, s.runTests, s.weights, s.thresholds⟩

/-- A validator that uses the programs of a Go installation if they are wanted and there. -/
def detect (s : Settings) (programs : Go.Programs) : Validator × Log :=
  if !s.useToolchain then (ofSettings s none, [])
  else
    match programs.detect with
    | some toolchain => (ofSettings s (some toolchain), [])
    | none => (ofSettings s none,
        [.warn ("Go toolchain \x60" ++ s.go ++
          "\x60 not found; compile, vet and test signals will score 0")])

/-- The result of a check with the errors that the formatter found. -/
def addErrors (r : Go.CheckResult) (errors : List String) : Go.CheckResult :=
  errors.foldl (fun r text => r.add (Go.lineOf text) (.reported text)) r

/-- Checks a text. -/
def checkText (v : Validator) (text : String) : Go.CheckResult × Log :=
  let r := Go.checkString text
  match v.toolchain with
  | none => (r, [])
  | some toolchain =>
    match toolchain.format text with
    | .ok check => (addErrors r check.errors, [])
    | .error e => (r, [.warn ("gofmt check failed: " ++ e.message)])

/-- Compiles a package. -/
def compile (v : Validator) (directory : Path) : Except Go.ToolError Go.Compilation × Log :=
  match v.toolchain with
  | none => (.error .noToolchain, [])
  | some toolchain =>
    match toolchain.compile directory with
    | .ok c => (.ok c, [.info ("Compiled " ++ directory.text ++ ": " ++
        (if c.success then "ok" else "failed"))])
    | .error e => (.error e, [])

/-- An answer of a tool; one that failed is reported. -/
def answer {α : Type} (directory : Path) (check : String) (result : Except Go.ToolError α) :
    Option α × Log :=
  match result with
  | .ok a => (some a, [])
  | .error e => (none, [.warn ("go " ++ check ++ " in " ++ directory.text ++ " failed to run: " ++
      e.message)])

/-- Runs all checks on a package. -/
def checkModule (v : Validator) (directory : Path) : ModuleCheck × Log :=
  match v.toolchain with
  | none => ({}, [])
  | some toolchain =>
    let (compiled, log₁) := v.compile directory
    let (compilation, log₂) := answer directory "build" compiled
    let (complaints, log₃) := answer directory "vet" (toolchain.vet directory)
    let (tests, log₄) :=
      if v.runTests then answer directory "test" (toolchain.test directory) else (none, [])
    (⟨compilation, complaints, tests⟩, log₁ ++ log₂ ++ log₃ ++ log₄)

/-- What is known about a translation. -/
def signals (go fileName : String) (outline : Option Outline) (m : ModuleCheck)
    (integrationTests : Option Float) : Signals Float where
  syntaxValid := some (Go.checkString go).valid
  compiles := m.compilation.map (·.success)
  unitTests := m.tests.bind (·.passRate)
  integrationTests := integrationTests
  businessRules := outline.map fun o => coverage o go
  lint := some (lintScore ((m.complaintsAbout fileName).getD 0) go)

/-- Judges a translation. -/
def assess (v : Validator) (go fileName : String) (outline : Option Outline) (m : ModuleCheck)
    (integrationTests : Option Float) : Validation :=
  let s := signals go fileName outline m integrationTests
  ⟨s, confidence v.weights v.thresholds s⟩

end Validator

end Recast.Assessment
