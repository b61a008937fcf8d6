/-
  Files/Error.lean --- what can go wrong with files, in the words of the operating system.
-/

set_option autoImplicit false

namespace Recast

/-- Why an operation on a file failed. -/
inductive FileError where
  | notFound
  | exists
  | notADirectory
  | isADirectory
  | nameTooLong
  deriving DecidableEq, Inhabited

namespace FileError

/-- The number of the error. -/
def number : FileError → Nat
  | .notFound => 2
  | .exists => 17
  | .notADirectory => 20
  | .isADirectory => 21
  | .nameTooLong => 36

/-- What the error is called. -/
def label : FileError → String
  | .notFound => "No such file or directory"
  | .exists => "File exists"
  | .notADirectory => "Not a directory"
  | .isADirectory => "Is a directory"
  | .nameTooLong => "File name too long"

/-- The wording of the error. -/
def message (e : FileError) : String := e.label ++ " (os error " ++ toString e.number ++ ")"

end FileError

end Recast
