/-
  Go/Skeleton.lean --- a Go file made from the outline alone, for when no translation was obtained.

  There is one type for each class, a constructor for each `__init__`, and a stub for every other
  method and every top-level function.  Names that clash are told apart by a number.
-/
import Recast.Go.Identifier
import Recast.Outline.Basic
import Recast.Text.Blank
import Recast.Text.Lines

set_option autoImplicit false

namespace Recast.Go.Skeleton

/-- The first of the names `base`, `base2`, `base3`, … that is not taken; one more name is tried
than there are taken ones. -/
def freeName (taken : List String) (base : String) : String :=
  let candidates := base :: (List.range taken.length).map fun i => base ++ toString (i + 2)
  (candidates.find? fun name => !taken.contains name).getD base

/-- Free names for a list of names, one after the other. -/
def freeNames : List String → List String → List String
  | _, [] => []
  | taken, base :: rest =>
    let name := freeName taken base
    name :: freeNames (name :: taken) rest

/-- The name of the receiver of methods. -/
def receiver : String := "r"

/-- The first line of a documentation that is not blank. -/
def docLine (doc : Option String) : Option String :=
  doc.bind fun d => ((Text.stringLines d).map Text.trimmed).find? (· != "")

/-- The parameters of a function in Python, without the one for the object itself. -/
def ownParams (f : FunctionDecl) : List String :=
  match f.owner, f.params with
  | some _, first :: rest => if first = "self" ∨ first = "cls" then rest else first :: rest
  | _, params => params

/-- The parameter list of the stub of a function. -/
def paramList (f : FunctionDecl) : String :=
  let taken := if f.owner.isSome then [receiver] else []
  let names := freeNames taken ((ownParams f).map localName)
  ", ".intercalate (names.map (· ++ " any"))

/-- The end of a stub. -/
def stubBody (returns what : String) : String :=
  "\treturn " ++ returns ++ "errors.New(\"not implemented: " ++ what ++ "\")\n\x7d\n"

/-- A part of a skeleton: its text, the package-level names it takes, and its number of stubs. -/
structure Part where
  text : String
  taken : List String
  stubs : Nat

/-- The stubs of the methods of a class. -/
def methodParts (className typeName : String) :
    List String → List String → List FunctionDecl → Part
  | taken, _, [] => ⟨"", taken, 0⟩
  | taken, methods, f :: rest =>
    let what := className ++ "." ++ f.name
    if f.name = "__init__" then
      let constructor := freeName taken ("New" ++ typeName)
      let stub := "\nfunc " ++ constructor ++ "(" ++ paramList f ++ ") (*" ++ typeName ++
        ", error) \x7b\n" ++ stubBody "nil, " what
      let more := methodParts className typeName (constructor :: taken) methods rest
      ⟨stub ++ more.text, more.taken, more.stubs + 1⟩
    else
      let name := freeName methods (declarationName f.name)
      let stub := "\nfunc (" ++ receiver ++ " *" ++ typeName ++ ") " ++ name ++ "(" ++
        paramList f ++ ") error \x7b\n" ++ stubBody "" what
      let more := methodParts className typeName taken (name :: methods) rest
      ⟨stub ++ more.text, more.taken, more.stubs + 1⟩

/-- The comment on a declaration. -/
def comment (goName pythonName : String) (doc : Option String) : Option String :=
  (docLine doc).map fun line => "// " ++ goName ++ " ports " ++ pythonName ++ ": " ++ line ++ "\n"

/-- A class: its type and the stubs of its methods. -/
def classPart (o : Outline) (taken : List String) (c : ClassDecl) : Part :=
  let typeName := freeName taken (declarationName c.name)
  let head := "\n" ++
    (comment typeName c.name c.doc).getD ("// " ++ typeName ++ " ports " ++ c.name ++ ".\n") ++
    "type " ++ typeName ++ " struct\x7b\x7d\n"
  let methods := methodParts c.name typeName (typeName :: taken) [] (o.methodsOf c.name)
  ⟨head ++ methods.text, methods.taken, methods.stubs⟩

/-- The classes of a file. -/
def classParts (o : Outline) : List String → List ClassDecl → Part
  | taken, [] => ⟨"", taken, 0⟩
  | taken, c :: rest =>
    let first := classPart o taken c
    let more := classParts o first.taken rest
    ⟨first.text ++ more.text, more.taken, first.stubs + more.stubs⟩

/-- A top-level function. -/
def functionPart (taken : List String) (f : FunctionDecl) : Part :=
  let name := freeName taken (declarationName f.name)
  ⟨"\n" ++ (comment name f.name f.doc).getD "" ++ "func " ++ name ++ "(" ++ paramList f ++
    ") error \x7b\n" ++ stubBody "" f.name, name :: taken, 1⟩

/-- The top-level functions of a file. -/
def functionParts : List String → List FunctionDecl → Part
  | taken, [] => ⟨"", taken, 0⟩
  | taken, f :: rest =>
    let first := functionPart taken f
    let more := functionParts first.taken rest
    ⟨first.text ++ more.text, more.taken, first.stubs + more.stubs⟩

/-- The skeleton of a file. -/
def render (package fileName : String) (o : Outline) : String :=
  let classes := classParts o [] o.classes
  let functions := functionParts classes.taken o.topLevelFunctions
  "// Code generated from " ++ fileName ++
    " without a model translation. Port each stub by hand.\n\npackage " ++ package ++ "\n" ++
    (if classes.stubs + functions.stubs > 0 then "\nimport \"errors\"\n" else "") ++
    classes.text ++ functions.text

end Recast.Go.Skeleton
