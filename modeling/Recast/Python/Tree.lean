/-
  Python/Tree.lean --- the tree of a parsed Python file.

  The tree keeps what the analysis of a file looks at: declarations with their place in the file,
  imports, and in expressions the names, calls, strings and assignment targets.  Every other form
  of expression is kept as the list of its operands.
-/
import Recast.Python.Name

set_option autoImplicit false

namespace Recast.Python

/-- An expression. -/
inductive Expr where
  /-- A name. -/
  | name (name : Name)
  /-- A field of an object. -/
  | attribute (object : Expr) (field : Name)
  /-- Indices or slices of an object. -/
  | subscript (object : Expr) (indices : List Expr)
  /-- A call. -/
  | call (callee : Expr) (arguments : List Expr)
  /-- One string literal as written, with the expressions in its replacement fields. -/
  | string (raw : String) (fields : List Expr)
  /-- An item marked with a star. -/
  | starred (item : Expr)
  /-- Items in parentheses or brackets. -/
  | display (items : List Expr)
  /-- Any other form, by its operands. -/
  | compound (operands : List Expr)
  deriving Inhabited

namespace Expr

/-- Whether a star may mark the expression as an assignment target. -/
def isPlace : Expr → Bool
  | .name _ => true
  | .attribute _ _ => true
  | .subscript _ _ => true
  | _ => false

mutual

/-- Whether a value can be assigned to the expression. -/
def isTarget : Expr → Bool
  | .name _ => true
  | .attribute _ _ => true
  | .subscript _ _ => true
  | .starred item => item.isPlace
  | .display items => areTargets items
  | _ => false

/-- Whether values can be assigned to all the expressions. -/
def areTargets : List Expr → Bool
  | [] => true
  | e :: es => isTarget e && areTargets es

end

/-- The expression with a star in front of it: the star binds to the innermost called place. -/
def star? : Expr → Option Expr
  | .call callee arguments => (star? callee).map fun c => .call c arguments
  | e => if e.isPlace then some (.starred e) else none

end Expr

mutual

/-- A statement. -/
inductive Stmt where
  /-- `import` with the dotted names as written. -/
  | imports (modules : List String)
  /-- `from … import` with the module and the symbols as written; a star stands for all. -/
  | importsFrom (module : String) (symbols : List String)
  /-- A statement that is a list of expressions. -/
  | expression (first : Expr) (others : List Expr)
  /-- Any other statement without a body, by its expressions. -/
  | plain (parts : List Expr)
  /-- A function with its decorators.  The lines are the first and the last one. -/
  | function (decorators : List Expr) (line : Nat) (name : Name) (parameters : List String)
      (body : List Stmt) (endLine : Nat)
  /-- A class with its decorators and its first line. -/
  | classDef (decorators : List Expr) (line : Nat) (name : Name) (bases : List String)
      (body : List Stmt)
  /-- A statement made of clauses with bodies. -/
  | compound (clauses : List Clause)

/-- A clause of a compound statement.  The declarations in the body of an open clause count as
declarations of the scope around the statement; those of a closed clause do not count at all. -/
inductive Clause where
  | mk (isOpen : Bool) (heads : List Expr) (body : List Stmt)

end

end Recast.Python
