/-
  Go/Lexer.lean --- reading Go text one character at a time.

  The lexer follows the nesting of delimiters outside literals and comments.  It can be fed in
  pieces of any size: what it knows after a text does not depend on how the text was cut
  (`feed_append`).
-/
import Recast.Text.Letter
import Recast.Text.Blank

set_option autoImplicit false

namespace Recast.Go

/-- What is wrong with a Go text. -/
inductive Fault where
  /-- There is nothing but blanks. -/
  | emptyFile
  /-- The file does not begin with a package clause. -/
  | noPackage
  /-- A closer meets an opener of another kind, opened on the given line. -/
  | mismatched (closer opener : Char) (line : Nat)
  /-- A closer meets no opener. -/
  | unopened (closer : Char)
  /-- A literal or comment of the named kind does not end. -/
  | unterminated (kind : String)
  /-- An opener meets no closer. -/
  | unclosed (opener : Char)
  /-- A formatter reported the text. -/
  | reported (text : String)
  deriving DecidableEq

/-- The wording of a fault. -/
def Fault.message : Fault → String
  | .emptyFile => "empty file"
  | .noPackage => "expected \x60package <name>\x60 before any other declaration"
  | .mismatched closer opener line =>
    "unexpected \x60" ++ closer.toString ++ "\x60, expected the \x60" ++ opener.toString ++
      "\x60 from line " ++ toString line ++ " to be closed first"
  | .unopened closer => "unexpected \x60" ++ closer.toString ++ "\x60 with nothing open"
  | .unterminated kind => kind ++ " not terminated"
  | .unclosed opener => "\x60" ++ opener.toString ++ "\x60 is never closed"
  | .reported text => text

/-- A fault and the line it is on, counted from one. -/
structure Diagnostic where
  line : Nat
  fault : Fault
  deriving DecidableEq

/-- What the lexer is in the middle of. -/
inductive Mode where
  | code
  /-- Behind a slash in code, which may begin a comment. -/
  | slash
  | lineComment
  /-- In a comment between stars; `star` tells that the last character was one. -/
  | blockComment (star : Bool)
  /-- In a string in double quotes; `escaped` tells that a backslash protects the next character. -/
  | interpreted (escaped : Bool)
  /-- In a character literal. -/
  | rune (escaped : Bool)
  /-- In a string between backticks. -/
  | raw
  deriving DecidableEq

/-- What is known about a text after its characters so far. -/
structure Lexer where
  mode : Mode := .code
  /-- The current line. -/
  line : Nat := 1
  /-- The open delimiters with their lines, innermost first. -/
  stack : List (Char × Nat) := []
  /-- Whether any delimiter was opened. -/
  opened : Bool := false
  /-- The line on which the current literal or comment began. -/
  literalLine : Nat := 1
  /-- The faults found, in the order of the text. -/
  diagnostics : List Diagnostic := []
  /-- The first two tokens. -/
  head : List (List Char) := []
  /-- The word being read. -/
  word : List Char := []

namespace Lexer

/-- The opener that a closer belongs to. -/
def openerOf (closer : Char) : Char :=
  if closer = ')' then '(' else if closer = ']' then '[' else '{'

/-- An opening delimiter. -/
def isOpener (c : Char) : Bool := c == '(' || c == '[' || c == '{'

/-- A closing delimiter. -/
def isCloser (c : Char) : Bool := c == ')' || c == ']' || c == '}'

/-- The state after a token, which counts if it is one of the first two. -/
def token (t : List Char) (l : Lexer) : Lexer :=
  if l.head.length < 2 then { l with head := l.head ++ [t] } else l

/-- The state with one more fault on the current line. -/
def report (fault : Fault) (l : Lexer) : Lexer :=
  { l with diagnostics := l.diagnostics ++ [⟨l.line, fault⟩] }

/-- The state after a closing delimiter in code.  One that does not fit leaves the openers open. -/
def close (c : Char) (l : Lexer) : Lexer :=
  match l.stack with
  | (opener, line) :: rest =>
    if opener = openerOf c then { l with stack := rest }
    else l.report (.mismatched c opener line)
  | [] => l.report (.unopened c)

/-- The state after the word being read has ended. -/
def endWord (l : Lexer) : Lexer :=
  if l.word.isEmpty then l else { l with word := [] }.token l.word

/-- The state in a literal that begins on the current line. -/
def beginLiteral (mode : Mode) (l : Lexer) : Lexer :=
  { l with literalLine := l.line, mode := mode }

/-- The state after a character in code other than a slash or a part of a word. -/
def mark (c : Char) (l : Lexer) : Lexer :=
  if c = '"' then l.beginLiteral (.interpreted false)
  else if c = '\'' then l.beginLiteral (.rune false)
  else if c = '\x60' then l.beginLiteral .raw
  else if isOpener c then { l with stack := (c, l.line) :: l.stack, opened := true }
  else if isCloser c then l.close c
  else l

/-- The state after a character in code. -/
def code (c : Char) (l : Lexer) : Lexer :=
  if Text.isWordChar c then { l with word := l.word ++ [c] }
  else
    let l := l.endWord
    if c = '/' then { l with mode := .slash }
    else
      let l := l.mark c
      if Text.isBlank c then l else l.token [c]

/-- The state after a line end inside a literal, which ends there. -/
def breakLiteral (kind : String) (l : Lexer) : Lexer :=
  { l.report (.unterminated kind) with mode := .code }

/-- The state after a character of a literal between quotes. -/
def quoted (quote : Char) (kind : String) (again : Bool → Mode) (escaped : Bool) (c : Char)
    (l : Lexer) : Lexer :=
  if c = '\n' then l.breakLiteral kind
  else if c = quote ∧ escaped = false then { l with mode := .code }
  else { l with mode := again (!escaped && c == '\\') }

/-- The state after a character, not counting lines. -/
def stepMode (l : Lexer) (c : Char) : Lexer :=
  match l.mode with
  | .code => l.code c
  | .slash =>
    if c = '/' then { l with mode := .lineComment }
    else if c = '*' then l.beginLiteral (.blockComment false)
    else { l with mode := .code }.token ['/'] |>.code c
  | .lineComment => if c = '\n' then { l with mode := .code } else l
  | .blockComment star =>
    if star ∧ c = '/' then { l with mode := .code }
    else { l with mode := .blockComment (c == '*') }
  | .interpreted escaped => l.quoted '"' "string literal" .interpreted escaped c
  | .rune escaped => l.quoted '\'' "rune literal" .rune escaped c
  | .raw => if c = '\x60' then { l with mode := .code } else l

/-- The state after one more character. -/
def step (l : Lexer) (c : Char) : Lexer :=
  let l := l.stepMode c
  if c = '\n' then { l with line := l.line + 1 } else l

/-- The state after more text. -/
def feed (l : Lexer) (cs : List Char) : Lexer := cs.foldl step l

@[simp] theorem feed_nil (l : Lexer) : l.feed [] = l := rfl

@[simp] theorem feed_cons (l : Lexer) (c : Char) (cs : List Char) :
    l.feed (c :: cs) = (l.step c).feed cs := rfl

/-- Feeding a text in two parts is feeding it at once. -/
@[simp] theorem feed_append (l : Lexer) (cs ds : List Char) :
    l.feed (cs ++ ds) = (l.feed cs).feed ds := List.foldl_append ..

/-- The number of open delimiters. -/
def depth (l : Lexer) : Nat := l.stack.length

/-- Whether every delimiter is closed and the text is in code or in a comment to the line end. -/
def balanced (l : Lexer) : Bool :=
  l.stack.isEmpty && (l.mode == .code || l.mode == .lineComment)

/-- Whether the text is inside a string between backticks. -/
def inRawString (l : Lexer) : Bool := l.mode == .raw

/-- The name of what the text breaks off in, if that has to be ended. -/
def openLiteral : Mode → Option String
  | .interpreted _ => some "string literal"
  | .rune _ => some "rune literal"
  | .raw => some "raw string literal"
  | .blockComment _ => some "comment"
  | _ => none

/-- All faults of a text that ends here: those found on the way, an unfinished literal, and the
openers that were never closed. -/
def finish (l : Lexer) : List Diagnostic :=
  l.diagnostics ++
    ((openLiteral l.mode).map fun kind =>
      Diagnostic.mk l.literalLine (.unterminated kind)).toList ++
    l.stack.reverse.map fun (opener, line) => ⟨line, .unclosed opener⟩

/-- Whether a word is an identifier. -/
def isIdentifier : List Char → Bool
  | [] => false
  | c :: cs => (Text.isLetter c || c == '_') && cs.all Text.isWordChar

/-- The first two tokens, the word being read included. -/
def firstTokens (l : Lexer) : List (List Char) :=
  l.head ++ if l.word.isEmpty then [] else [l.word]

/-- The package name, if the text begins with a package clause. -/
def packageName (l : Lexer) : Option (List Char) :=
  match l.firstTokens with
  | keyword :: name :: _ =>
    if keyword = "package".toList ∧ isIdentifier name = true then some name else none
  | _ => none

end Lexer

end Recast.Go
