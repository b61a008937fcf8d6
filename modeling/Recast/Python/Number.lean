/-
  Python/Number.lean --- the extent of a number literal.
-/
import Recast.Text.Letter

set_option autoImplicit false

namespace Recast.Python

/-- The text after the longest run of digits of a class in which single underscores may stand
between digits and after the last one.  Nothing if there is no digit. -/
def digitRun? (isDigit : Char → Bool) : List Char → Option (List Char)
  | [] => none
  | c :: cs =>
    if !isDigit c then none
    else
      match digitRun? isDigit cs with
      | some rest => some rest
      | none =>
        match cs with
        | '_' :: after =>
          match digitRun? isDigit after with
          | some rest => some rest
          | none => some after
        | _ => some cs

/-- The text after digits of a class with an optional underscore in front of each run. -/
def basedRun (isDigit : Char → Bool) : List Char → List Char
  | [] => []
  | c :: cs =>
    if isDigit c then basedRun isDigit cs
    else if c = '_' ∧ cs.head?.any isDigit then basedRun isDigit cs
    else c :: cs

/-- The text after an optional character of a class. -/
def skipOne (p : Char → Bool) : List Char → List Char
  | c :: cs => if p c then cs else c :: cs
  | [] => []

/-- The mark of a long integer. -/
def isLongMark (c : Char) : Bool := c == 'l' || c == 'L'

/-- The mark of a long or imaginary number. -/
def isNumberMark (c : Char) : Bool := isLongMark c || c == 'j' || c == 'J'

/-- The text after an optional exponent. -/
def skipExponent (cs : List Char) : List Char :=
  match cs with
  | c :: rest =>
    if c = 'e' ∨ c = 'E' then
      ((digitRun? Text.isAsciiDigit (skipOne (fun c => c == '+' || c == '-') rest))).getD cs
    else cs
  | [] => []

/-- A binary digit. -/
def isBinaryDigit (c : Char) : Bool := c == '0' || c == '1'

/-- An octal digit. -/
def isOctalDigit (c : Char) : Bool := '0' ≤ c && c ≤ '7'

/-- A hexadecimal digit. -/
def isHexDigit (c : Char) : Bool :=
  Text.isAsciiDigit c || ('a' ≤ c && c ≤ 'f') || ('A' ≤ c && c ≤ 'F')

/-- The class of digits that a letter after a leading zero announces. -/
def baseDigits? (c : Char) : Option (Char → Bool) :=
  match c with
  | 'x' | 'X' => some isHexDigit
  | 'o' | 'O' => some isOctalDigit
  | 'b' | 'B' => some isBinaryDigit
  | _ => none

/-- The text after a number with a base mark. -/
def basedNumber? : List Char → Option (List Char)
  | '0' :: mark :: cs =>
    match baseDigits? mark with
    | some isDigit =>
      let rest := basedRun isDigit cs
      if rest.length < cs.length then some (skipOne isLongMark rest) else none
    | none => none
  | _ => none

/-- The text after the longest number at the start of a text. -/
def number? (cs : List Char) : Option (List Char) :=
  match basedNumber? cs with
  | some rest => some rest
  | none =>
    match digitRun? Text.isAsciiDigit cs with
    | some ('.' :: rest) =>
      some (skipOne isNumberMark (skipExponent ((digitRun? Text.isAsciiDigit rest).getD rest)))
    | some rest => some (skipOne isNumberMark (skipExponent rest))
    | none =>
      match cs with
      | '.' :: rest =>
        (digitRun? Text.isAsciiDigit rest).map fun rest => skipOne isNumberMark (skipExponent rest)
      | _ => none

end Recast.Python
