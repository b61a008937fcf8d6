/-
  Outline/OfTree.lean --- the outline of a parsed file.

  Declarations inside control flow belong to the scope around it.  A class lists the functions
  declared in its body; what a declaration is about is its documentation string or else the comment
  lines directly above it.
-/
import Recast.Outline.Basic
import Recast.Outline.Calls
import Recast.Text.Blank
import Recast.Text.Lines

set_option autoImplicit false

namespace Recast.Outline

open Recast.Python

/-- What a declaration is declared in. -/
inductive Scope where
  | file
  | inClass (name : String)
  | inFunction (qualifiedName : String)

/-- The declarations of a part of a file; a function comes with its body. -/
structure Declarations where
  imports : List String := []
  classes : List ClassDecl := []
  functions : List (FunctionDecl × List Stmt) := []

namespace Declarations

/-- The declarations of two parts, one after the other. -/
def append (a b : Declarations) : Declarations :=
  ⟨a.imports ++ b.imports, a.classes ++ b.classes, a.functions ++ b.functions⟩

instance : Append Declarations := ⟨append⟩

end Declarations

/-! ## Documentation -/

/-- The text between the quotes of a string literal. -/
def withoutQuotes (raw : List Char) : List Char :=
  let body := raw.dropWhile fun c => "rRbBuUfF".toList.contains c
  let inner (quote : String) : Option (List Char) :=
    (Text.stripStart? quote.toList body).bind (Text.stripEnd? quote.toList)
  (["\"\"\"", "'''", "\"", "'"].findSome? inner).getD body

/-- A text without blanks at its ends, unless nothing is left. -/
def nonBlank (cs : List Char) : Option String :=
  let trimmed := Text.trim cs
  if trimmed.isEmpty then none else some (String.ofList trimmed)

/-- The documentation string of a body: its first statement, if that begins with a string literal.
-/
def docString (body : List Stmt) : Option String :=
  match body with
  | .expression (.string raw _) _ :: _ => nonBlank (withoutQuotes raw.toList)
  | _ => none

/-- The text of a line that holds only a comment. -/
def commentText (line : List Char) : Option (List Char) :=
  (Text.stripStart? ['#'] (Text.trimStart line)).map Text.trim

/-- The texts of the comment lines at the end of a list of lines, last one first. -/
def closingComments : List (List Char) → List (List Char)
  | [] => []
  | line :: before =>
    match commentText line with
    | some text => text :: closingComments before
    | none => []

/-- The comment directly above a line. -/
def commentAbove (lines : List (List Char)) (line : Nat) : Option String :=
  match closingComments (lines.take (line - 1)).reverse with
  | [] => none
  | comments => some ("\n".intercalate (comments.reverse.map String.ofList))

/-- The documentation of a declaration with the given body that begins on a line. -/
def documentation (lines : List (List Char)) (line : Nat) (body : List Stmt) : Option String :=
  (docString body).or (commentAbove lines line)

/-! ## Declarations -/

/-- A symbol with the module it is imported from. -/
def importedName (module symbol : String) : String :=
  if module.toList.getLast? == some '.' then module ++ symbol else module ++ "." ++ symbol

/-- The number of a line in a machine word. -/
def lineWord (line : Nat) : Nat := line.toUInt64.toNat

/-- The declaration of a function in a scope. -/
def functionDecl (scope : Scope) (name : String) (params : List String) (doc : Option String)
    (startLine endLine : Nat) : FunctionDecl :=
  let (startLine, endLine) := (lineWord startLine, lineWord endLine)
  match scope with
  | .file => ⟨name, name, none, params, doc, startLine, endLine⟩
  | .inClass c => ⟨name, c ++ "." ++ name, some c, params, doc, startLine, endLine⟩
  | .inFunction f => ⟨name, f ++ "." ++ name, none, params, doc, startLine, endLine⟩

/-- The names of the functions owned by a class. -/
def ownedNames (className : String) (functions : List (FunctionDecl × List Stmt)) : List String :=
  (functions.filter fun f => f.1.owner == some className).map (·.1.name)

mutual

/-- The declarations of a statement. -/
def stmtDeclarations (lines : List (List Char)) (scope : Scope) : Stmt → Declarations
  | .imports modules => { imports := modules }
  | .importsFrom module symbols => { imports := symbols.map (importedName module) }
  | .expression _ _ => {}
  | .plain _ => {}
  | .function _ line name params body endLine =>
    let decl := functionDecl scope name.text params (documentation lines line body) line endLine
    let inner := bodyDeclarations lines (.inFunction decl.qualifiedName) body
    { inner with functions := (decl, body) :: inner.functions }
  | .classDef _ line name bases body =>
    let inner := bodyDeclarations lines (.inClass name.text) body
    let decl : ClassDecl :=
      ⟨name.text, bases, ownedNames name.text inner.functions, documentation lines line body,
        lineWord line⟩
    { inner with classes := decl :: inner.classes }
  | .compound clauses => clausesDeclarations lines scope clauses

/-- The declarations of a list of statements. -/
def bodyDeclarations (lines : List (List Char)) (scope : Scope) : List Stmt → Declarations
  | [] => {}
  | s :: ss => stmtDeclarations lines scope s ++ bodyDeclarations lines scope ss

/-- The declarations of a clause. -/
def clauseDeclarations (lines : List (List Char)) (scope : Scope) : Clause → Declarations
  | .mk true _ body => bodyDeclarations lines scope body
  | .mk false _ _ => {}

/-- The declarations of a list of clauses. -/
def clausesDeclarations (lines : List (List Char)) (scope : Scope) : List Clause → Declarations
  | [] => {}
  | c :: cs => clauseDeclarations lines scope c ++ clausesDeclarations lines scope cs

end

/-! ## The outline -/

/-- The calls of the functions to names of functions in the list.  Of functions with the same
qualified name the last one counts. -/
def callGraphOf (functions : List (FunctionDecl × List Stmt)) : CallGraph :=
  let known := Table.Keys.ofList (functions.map (·.1.name))
  Table.ofList <| functions.map fun (f, body) =>
    (f.qualifiedName, Table.Keys.ofList ((bodyCalls body).filter fun n => known.contains n))

/-- The outline of a file, given its lines and its statements. -/
def ofTree (lines : List (List Char)) (body : List Stmt) : Outline :=
  let decls := bodyDeclarations lines .file body
  { imports := decls.imports
    classes := decls.classes
    functions := decls.functions.map (·.1)
    callGraph := callGraphOf decls.functions
    doc := docString body }

end Recast.Outline
