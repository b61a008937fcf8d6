/-
  PromptText.lean --- the prompt that asks for the translation of a file.

  It names the facts about the file, related places in other files, hints of the user, and gives the
  source of the file between fences longer than any run of backticks in it.
-/
import Recast.Decimal.Fixed
import Recast.Inference
import Recast.Meaning.Match
import Recast.Meaning.Text
import Recast.SourceFile

set_option autoImplicit false

namespace Recast.PromptText

/-- What the service is told about its task in general.  The package name takes the place of the
word in braces. -/
def systemTemplate : String :=
  "You are an expert software engineer migrating a Python accounting code base to Go.
Translate the Python file supplied by the user into one Go source file.

Requirements:
- The file must begin with \x60package \x7bpackage\x7d\x60.
- Preserve the business logic exactly: the same calculations, validations, rounding and error conditions.
- Replace exceptions with explicit \x60error\x60 returns.
- Give Python classes a Go struct plus methods, and export every name that was public in Python.
- Use only the Go standard library.
- The related context describes other files of the project. Do not translate it; use it only to name dependencies consistently.

Reply with exactly one fenced \x60\x60\x60go code block and nothing after it.
"

/-- A titled list; nothing if it is empty. -/
def part (title : String) (items : List String) : String :=
  if items.isEmpty then ""
  else "\n" ++ title ++ ":\n" ++ String.join (items.map fun item => "- " ++ item ++ "\n")

/-- A class with its bases and methods. -/
def classItem (c : ClassDecl) : String :=
  c.name ++ (if c.bases.isEmpty then "" else "(" ++ ", ".intercalate c.bases ++ ")") ++
    (if c.methods.isEmpty then "" else ": methods " ++ ", ".intercalate c.methods)

/-- A function with its parameters and the first line of its documentation. -/
def functionItem (f : FunctionDecl) : String :=
  let about := match f.doc.bind fun d => (Text.stringLines d).head? with
    | some line => " - " ++ Text.trimmed line
    | none => ""
  f.qualifiedName ++ "(" ++ ", ".intercalate f.params ++ ")" ++ about

/-- A related place in another file. -/
def matchItem (m : Meaning.Match) : String :=
  let place := match m.name with
    | some name => m.subject.label ++ " " ++ name ++ " in"
    | none => m.subject.label
  "[" ++ Decimal.renderFixedSingle 3 m.score ++ "] " ++ place ++ " " ++ m.sourcePath.text ++ ": " ++
    m.meaning

/-- The longest run of a character in a text, `current` of which have just been passed. -/
def longestRun (c : Char) : Nat → List Char → Nat
  | current, [] => current
  | current, x :: xs =>
    if x = c then longestRun c (current + 1) xs else max current (longestRun c 0 xs)

/-- Backticks that occur nowhere in a text as many in a row. -/
def fence (source : List Char) : String :=
  String.ofList (List.replicate (max 3 (longestRun '\x60' 0 source + 1)) '\x60')

/-- A text that ends with a newline. -/
def withFinalNewline (s : String) : String :=
  if s.toList.getLast? = some '\n' then s else s ++ "\n"

/-- The source of a file between fences. -/
def sourcePart (fileName source : String) : String :=
  let f := fence source.toList
  "\nSource (" ++ fileName ++ "):\n" ++ f ++ "python\n" ++ withFinalNewline source ++ f ++ "\n"

/-- The prompt for a file; of the related places the first `topK` count. -/
def build (topK : Nat) (file : SourceFile) (o : Outline) (matches_ : List Meaning.Match)
    (hints : List String) (package : String) : Prompt :=
  let fileName := file.path.fileName
  { system := Text.replaceAll "\x7bpackage\x7d" package systemTemplate
    user :=
      "File: " ++ fileName ++ "\nDomain: " ++ Meaning.domain file.path.stem o ++ "\n" ++
      part "Business hints" (hints.map Text.trimmed) ++
      part "Dependencies" o.imports ++
      part "Classes" (o.classes.map classItem) ++
      part "Functions" (o.functions.map functionItem) ++
      part "Related context" ((matches_.take topK).map matchItem) ++
      sourcePart fileName file.text }

end Recast.PromptText
