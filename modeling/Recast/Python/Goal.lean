/-
  Python/Goal.lean --- the forms of the grammar that occur inside one another.

  Each form is read by a step that may ask for a form nested in it; the grammar ties these steps
  together by the depth of the nesting.
-/
import Recast.Python.Parser

set_option autoImplicit false

namespace Recast.Python

/-- What may follow an expression. -/
structure Follow where
  /-- The end of a line. -/
  newline : Bool := false
  /-- A closing bracket. -/
  close : Bool := false
  /-- A condition of a comprehension, so that `if` does not continue the expression. -/
  condition : Bool := false

namespace Follow

/-- What the grammar admits behind a complete operand. -/
def after (f : Follow) : Expect := { newline := f.newline, close := f.close }

/-- What the grammar admits where an operand may stand but need not. -/
def orOperand (f : Follow) : Expect := { newline := f.newline, close := f.close, text := true }

/-- A statement ends with its line. -/
def statement : Follow := { newline := true }

/-- An item of a bracketed sequence. -/
def bracketed : Follow := { close := true }

/-- Only more of the statement can follow. -/
def inner : Follow := {}

end Follow

/-- Only an operand is admitted. -/
def Expect.operand : Expect := { text := true }

/-- Neither a line end, a bracket nor a string literal is admitted. -/
def Expect.plain : Expect := {}

/-- A form that may be nested in another one, with what reading it answers. -/
inductive Goal : Type → Type where
  /-- An expression. -/
  | expression (f : Follow) : Goal Expr
  /-- An expression that no `and`, `or`, `as` or condition continues. -/
  | term (f : Follow) : Goal Expr
  /-- An operand of an arithmetic operator. -/
  | operand (f : Follow) : Goal Expr
  /-- What stands behind an assignment sign. -/
  | assigned : Goal (List Expr)
  /-- A type hint. -/
  | hint (f : Follow) : Goal (List Expr)
  /-- A replacement field of a string after its brace. -/
  | field : Goal (List Expr)
  /-- A pattern of a `case`. -/
  | pattern : Goal (List Expr)
  /-- The body of a clause after its colon, with the line it ends on. -/
  | suite : Goal (List Stmt × Nat)

/-- Reads nested forms. -/
abbrev Nested := (α : Type) → Goal α → Parser α

end Recast.Python
