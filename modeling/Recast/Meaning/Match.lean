/-
  Meaning/Match.lean --- what a record of the meaning index is about, and places found in it.
-/
import Recast.Path

set_option autoImplicit false

namespace Recast.Meaning

/-- What a record is about. -/
inductive Subject where
  | file
  | function
  | relation
  deriving DecidableEq, Inhabited

namespace Subject

/-- The name of a subject. -/
def label : Subject → String
  | .file => "file"
  | .function => "function"
  | .relation => "relation"

/-- The name of a subject as a part of record keys. -/
def tag : Subject → String
  | .file => "File"
  | .function => "Function"
  | .relation => "Relation"

/-- The subjects. -/
def all : List Subject := [.file, .function, .relation]

/-- The subject with a name. -/
def ofLabel? (s : String) : Option Subject := all.find? fun subject => subject.label == s

end Subject

/-- A place found in the index. -/
structure Match where
  meaning : String
  score : Float32
  subject : Subject
  sourcePath : Path
  name : Option String
  deriving Inhabited

end Recast.Meaning
