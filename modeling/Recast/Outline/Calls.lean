/-
  Outline/Calls.lean --- which names a function body calls.

  A call counts by the last name of what is called.  The bodies of nested declarations do not
  belong to the body around them; their decorators do.
-/
import Recast.Python.Tree

set_option autoImplicit false

namespace Recast.Outline

open Recast.Python

/-- The name a call goes by. -/
def calleeName : Expr → Option String
  | .name n => some n.text
  | .attribute _ field => some field.text
  | _ => none

mutual

/-- The names called in an expression. -/
def exprCalls : Expr → List String
  | .name _ => []
  | .attribute object _ => exprCalls object
  | .subscript object indices => exprCalls object ++ exprListCalls indices
  | .call callee arguments =>
    (calleeName callee).toList ++ exprCalls callee ++ exprListCalls arguments
  | .string _ fields => exprListCalls fields
  | .starred item => exprCalls item
  | .display items => exprListCalls items
  | .compound operands => exprListCalls operands

/-- The names called in a list of expressions. -/
def exprListCalls : List Expr → List String
  | [] => []
  | e :: es => exprCalls e ++ exprListCalls es

end

mutual

/-- The names called in a statement. -/
def stmtCalls : Stmt → List String
  | .imports _ => []
  | .importsFrom _ _ => []
  | .expression first others => exprCalls first ++ exprListCalls others
  | .plain parts => exprListCalls parts
  | .function decorators _ _ _ _ _ => exprListCalls decorators
  | .classDef decorators _ _ _ _ => exprListCalls decorators
  | .compound clauses => clausesCalls clauses

/-- The names called in a list of statements. -/
def bodyCalls : List Stmt → List String
  | [] => []
  | s :: ss => stmtCalls s ++ bodyCalls ss

/-- The names called in a clause. -/
def clauseCalls : Clause → List String
  | .mk _ heads body => exprListCalls heads ++ bodyCalls body

/-- The names called in a list of clauses. -/
def clausesCalls : List Clause → List String
  | [] => []
  | c :: cs => clauseCalls c ++ clausesCalls cs

end

end Recast.Outline
