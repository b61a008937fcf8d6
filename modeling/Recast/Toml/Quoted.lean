/-
  Toml/Quoted.lean --- blanks, comments and quoted strings of a TOML text.

  A string stands between quotes, in which a backslash escapes, or between apostrophes, in which it
  does not; three of them in a row open a string that may go over several lines.
-/
import Recast.Json.Reader

set_option autoImplicit false

namespace Recast.Toml

/-- A reading step: a value and the text after it. -/
abbrev Step (α : Type) := List Char → Option (α × List Char)

/-- Whether a character may stand in a comment or a string.  Control characters other than the tab
may not. -/
def isAllowed (c : Char) : Bool := c == '\t' || (' ' ≤ c && c != '\x7f')

/-- A blank within a line. -/
def isBlank (c : Char) : Bool := c == ' ' || c == '\t'

/-- The text after blanks within a line. -/
def skipBlanks (cs : List Char) : List Char := cs.dropWhile isBlank

/-- The text after a newline. -/
def newline? : List Char → Option (List Char)
  | '\n' :: cs => some cs
  | '\r' :: '\n' :: cs => some cs
  | _ => none

/-- The text after blanks, newlines and comments; `comment` tells whether it begins inside of one.
-/
def skipGap : Bool → List Char → Option (List Char)
  | _, [] => some []
  | _, '\n' :: cs => skipGap false cs
  | _, '\r' :: '\n' :: cs => skipGap false cs
  | true, c :: cs => if isAllowed c then skipGap true cs else none
  | false, c :: cs =>
    if isBlank c then skipGap false cs
    else if c = '#' then skipGap true cs
    else some (c :: cs)

/-- The text after the rest of a line that may only hold a comment. -/
def lineEnd? (cs : List Char) : Option (List Char) :=
  match skipBlanks cs with
  | [] => some []
  | '#' :: cs =>
    match cs.dropWhile isAllowed with
    | [] => some []
    | rest => newline? rest
  | cs => newline? cs

/-! ### Strings -/

/-- The character with a code given in hexadecimal digits. -/
def ofCode? (digits : List Char) : Option Char := do
  let ds ← digits.mapM Text.hexDigit?
  let code := ds.foldl (fun n d => n * 16 + d) 0
  if code.isValidChar then some (Char.ofNat code) else none

/-- The character behind a backslash. -/
def escape : Step Char
  | 'b' :: cs => some ('\x08', cs)
  | 't' :: cs => some ('\t', cs)
  | 'n' :: cs => some ('\n', cs)
  | 'f' :: cs => some ('\x0c', cs)
  | 'r' :: cs => some ('\r', cs)
  | '"' :: cs => some ('"', cs)
  | '\\' :: cs => some ('\\', cs)
  | 'u' :: cs => if cs.length < 4 then none else (ofCode? (cs.take 4)).map fun c => (c, cs.drop 4)
  | 'U' :: cs => if cs.length < 8 then none else (ofCode? (cs.take 8)).map fun c => (c, cs.drop 8)
  | _ => none

/-- The rest of a string within a line, in front of the characters already read (reversed). -/
def lineTail (quote : Char) : Nat → List Char → Step String
  | 0, _, _ => none
  | _ + 1, _, [] => none
  | fuel + 1, read, c :: cs =>
    if c = quote then some (String.ofList read.reverse, cs)
    else if c = '\\' ∧ quote = '"' then
      match escape cs with
      | some (e, cs) => lineTail quote fuel (e :: read) cs
      | none => none
    else if isAllowed c then lineTail quote fuel (c :: read) cs
    else none

/-- The text after a backslash at the end of a line and all blanks and newlines behind it. -/
def continuation? (cs : List Char) : Option (List Char) :=
  (newline? (skipBlanks cs)).map fun cs => cs.dropWhile fun c => isBlank c || c == '\n' || c == '\r'

/-- The rest of a string over several lines.  Up to two quotes in front of the three that close it
belong to it. -/
def blockTail (quote : Char) : Nat → List Char → Step String
  | 0, _, _ => none
  | _ + 1, _, [] => none
  | fuel + 1, read, c :: cs =>
    if c = quote then
      let count := min 5 ((c :: cs).takeWhile (· == quote)).length
      let rest := (c :: cs).drop count
      if count < 3 then blockTail quote fuel (List.replicate count quote ++ read) rest
      else some (String.ofList (List.replicate (count - 3) quote ++ read).reverse, rest)
    else if c = '\\' ∧ quote = '"' then
      match continuation? cs, escape cs with
      | some cs, _ => blockTail quote fuel read cs
      | none, some (e, cs) => blockTail quote fuel (e :: read) cs
      | none, none => none
    else
      match newline? (c :: cs) with
      | some cs => blockTail quote fuel ('\n' :: read) cs
      | none => if isAllowed c then blockTail quote fuel (c :: read) cs else none

/-- A string within a line. -/
def lineString : Step String
  | c :: cs => if c = '"' ∨ c = '\'' then lineTail c (cs.length + 1) [] cs else none
  | [] => none

/-- A string.  A newline right behind three quotes does not count. -/
def string (cs : List Char) : Option (String × List Char) :=
  match cs with
  | a :: b :: c :: rest =>
    if (a = '"' ∨ a = '\'') ∧ b = a ∧ c = a then
      blockTail a (rest.length + 1) [] ((newline? rest).getD rest)
    else lineString cs
  | cs => lineString cs

end Recast.Toml
