/-
  Conversion/Item.lean --- a source file on its way to a Go file, with everything that happened to
  it.
-/
import Recast.Assessment.Validator
import Recast.Conversion.Stage
import Recast.SourceFile

set_option autoImplicit false

namespace Recast

/-- A source file on its way to a Go file. -/
structure Conversion.Item where
  source : SourceFile
  /-- The outline, unless the file did not parse. -/
  outline : Option Outline
  /-- The Go package of the translation. -/
  module : String
  goFile : String
  /-- Where the translation is, once it is written. -/
  target : Option Path := none
  /-- Whether the file of the translation was written anew, and not found as it should be. -/
  rewritten : Bool := false
  output : Option String := none
  /-- Whether the output comes from the cache. -/
  cached : Bool := false
  /-- The number of requests made for the file. -/
  attempts : Nat := 0
  /-- Whether the output is a skeleton. -/
  fallback : Bool := false
  /-- Why earlier attempts were given up. -/
  failures : List String := []
  /-- Why there is no translation. -/
  failure : Option String := none
  /-- Whether the run was cancelled when the output was ready but not written. -/
  unwritten : Bool := false
  validation : Option Assessment.Validation := none
  /-- The stages behind the first one, the latest first. -/
  later : List Conversion.Stage := []

namespace Conversion.Item

/-- A source file before anything has happened to it. -/
def start (source : SourceFile) (outline : Option Outline) (module goFile : String) : Item :=
  { source, outline, module, goFile }

/-- The current stage. -/
def stage (item : Item) : Stage := item.later.headD .pending

/-- All stages in their order. -/
def trace (item : Item) : List Stage := .pending :: item.later.reverse

/-- What is said about a change of stage. -/
def moveLog (item : Item) (next : Stage) : Log :=
  let path := item.source.path.text
  (if item.stage.allows next then []
   else [.warn (path ++ ": unexpected transition " ++ item.stage.word ++ " -> " ++ next.word)]) ++
  [.info (path ++ ": " ++ next.word)]

/-- The file in its next stage. -/
def move (item : Item) (next : Stage) : Item := { item with later := next :: item.later }

@[simp] theorem trace_move (item : Item) (next : Stage) :
    (item.move next).trace = item.trace ++ [next] := by
  simp [trace, move]

end Conversion.Item

end Recast
