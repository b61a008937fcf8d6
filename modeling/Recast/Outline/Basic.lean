/-
  Outline/Basic.lean --- the outline of a Python file: what it imports and declares, and which of
  its functions call one another.
-/
import Recast.Table
import Recast.Text.Search

set_option autoImplicit false

namespace Recast

/-- A class of a file. -/
structure ClassDecl where
  name : String := ""
  /-- The base classes as written. -/
  bases : List String := []
  /-- The names of the functions in the body of the class. -/
  methods : List String := []
  doc : Option String := none
  line : Nat := 0
  deriving DecidableEq, Inhabited

/-- A function of a file: at the top level, in a class or in another function. -/
structure FunctionDecl where
  name : String := ""
  /-- The name after that of the class or function around it. -/
  qualifiedName : String := ""
  /-- The class, for a method. -/
  owner : Option String := none
  params : List String := []
  doc : Option String := none
  startLine : Nat := 0
  endLine : Nat := 0
  deriving DecidableEq, Inhabited

/-- The calls of each function, by qualified name, to names of functions of the same file. -/
abbrev CallGraph := Table String (Table.Keys String)

/-- The outline of a file. -/
structure Outline where
  /-- The imported names in the order of the file, each with its module. -/
  imports : List String := []
  classes : List ClassDecl := []
  functions : List FunctionDecl := []
  callGraph : CallGraph := ∅
  /-- The documentation of the file. -/
  doc : Option String := none
  deriving Inhabited

namespace FunctionDecl

/-- Whether the function is neither in a class nor in another function. -/
def isTopLevel (f : FunctionDecl) : Bool := f.owner.isNone && f.qualifiedName == f.name

end FunctionDecl

namespace Outline

/-- The functions that are neither in a class nor in another function. -/
def topLevelFunctions (o : Outline) : List FunctionDecl :=
  o.functions.filter FunctionDecl.isTopLevel

/-- The functions in the body of a class. -/
def methodsOf (o : Outline) (className : String) : List FunctionDecl :=
  o.functions.filter fun f => f.owner == some className

/-- An imported name without the dots that make it relative. -/
def absoluteImport (name : String) : List Char := name.toList.dropWhile (· == '.')

/-- The first component of an imported name. -/
def importedModule (name : String) : String :=
  String.ofList ((absoluteImport name).takeWhile (· != '.'))

/-- The modules the file imports from, without repetition, in the order of the file. -/
def importedModules (o : Outline) : List String :=
  ((o.imports.map importedModule).filter fun m => m != "" && m != "*").eraseDups

end Outline

end Recast
