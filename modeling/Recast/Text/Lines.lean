/-
  Text/Lines.lean --- the lines of a text.

  Nothing is lost: the lines with their ends, joined, are the text.
-/

set_option autoImplicit false

namespace Recast.Text

/-- The lines of a text, each with the newline that ends it. -/
def linesWithEnds : List Char → List (List Char)
  | [] => []
  | c :: cs =>
    if c = '\n' then [c] :: linesWithEnds cs
    else
      match linesWithEnds cs with
      | [] => [[c]]
      | line :: rest => (c :: line) :: rest

/-- Joining the lines gives the text back. -/
theorem flatten_linesWithEnds (cs : List Char) : (linesWithEnds cs).flatten = cs := by
  induction cs with
  | nil => rfl
  | cons c cs ih =>
    unfold linesWithEnds
    split
    · simp [ih]
    · split
      · next h => rw [h] at ih; simp at ih; simp [ih]
      · next h => rw [h] at ih; simp at ih; simp [ih]

/-- A line without its end: a newline, or a carriage return and a newline. -/
def stripLineEnd (line : List Char) : List Char :=
  match line.reverse with
  | '\n' :: '\r' :: rest => rest.reverse
  | '\n' :: rest => rest.reverse
  | _ => line

/-- The lines of a text without their ends. -/
def lines (cs : List Char) : List (List Char) := (linesWithEnds cs).map stripLineEnd

/-- The lines of a string without their ends. -/
def stringLines (s : String) : List String := (lines s.toList).map String.ofList

end Recast.Text
