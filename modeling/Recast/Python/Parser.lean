/-
  Python/Parser.lean --- reading the tokens of a Python file one after the other.

  A word is a keyword only where the grammar admits that keyword; everywhere else it is a name.
-/
import Recast.Python.Cursor
import Recast.Python.Number
import Recast.Python.Tree

set_option autoImplicit false

namespace Recast.Python

/-- A reading step. -/
abbrev Parser := StateT Cursor Option

namespace Parser

/-- The next token. -/
def ahead (e : Expect) : Parser Ahead := do return (← get).ahead e

/-- The text from the next token on, if that is no string literal and no line or block end. -/
def codeAhead (e : Expect) : Parser (List Char) := do
  let a ← ahead e
  match a.next with
  | .code _ => return a.place.rest
  | _ => return []

/-- Whether the next token is the end of a line or of the file. -/
def lineEnds (e : Expect) : Parser Bool := do
  match (← ahead e).next with
  | .layout .newline => return true
  | _ => return false

/-- Whether a symbol stands at the start of a text and not as a part of one of the longer ones. -/
def startsWith (symbol : String) (longer : List String) (cs : List Char) : Bool :=
  symbol.toList.isPrefixOf cs && !longer.any fun s => s.toList.isPrefixOf cs

/-- Reads a symbol if it comes next and is not the beginning of one of the longer ones. -/
def symbol? (e : Expect) (symbol : String) (longer : List String := []) : Parser Bool := do
  let a ← ahead e
  match a.next with
  | .code _ =>
    if startsWith symbol longer a.place.rest then
      set (a.place.advance symbol.length)
      return true
    else return false
  | _ => return false

/-- Reads a symbol. -/
def symbol (e : Expect) (s : String) (longer : List String := []) : Parser Unit := do
  if ← symbol? e s longer then return () else failure

/-- The word that comes next. -/
def wordAhead (e : Expect) : Parser (Option Name) := do
  return (Name.leading? (← codeAhead e)).map (·.1)

/-- Whether a particular word comes next. -/
def atWord (e : Expect) (w : String) : Parser Bool := do
  return (← wordAhead e).any fun n => n.chars == w.toList

/-- Reads the next word whatever it is. -/
def name (e : Expect) : Parser Name := do
  let a ← ahead e
  match a.next with
  | .code _ =>
    match Name.leading? a.place.rest with
    | some (n, rest) =>
      set (a.place.moveTo rest)
      return n
    | none => failure
  | _ => failure

/-- Reads a particular word if it comes next. -/
def word? (e : Expect) (w : String) : Parser Bool := do
  if ← atWord e w then
    discard (name e)
    return true
  else return false

/-- Reads a particular word. -/
def word (e : Expect) (w : String) : Parser Unit := do
  if ← word? e w then return () else failure

/-- Moves to the next token, unless it is the end of a line, of a block or of the file.  A form that
is read from there on sees that token and nothing in front of it, whatever the form itself would
admit. -/
def approach (e : Expect) : Parser Unit := do
  let a ← ahead e
  match a.next with
  | .text => set a.place
  | .code _ => set a.place
  | _ => return ()

/-- Moves to the next token if it begins an operand. -/
def operand? (e : Expect) : Parser Bool := do
  let a ← ahead e
  let begins := match a.next with
    | .text => true
    | .code c =>
      isNameStart c || Text.isAsciiDigit c || "([\x7b+-~*".toList.contains c ||
        (c == '.' && ((number? a.place.rest).isSome || startsWith "..." [] a.place.rest))
    | _ => false
  if begins then set a.place
  return begins

/-- Repeats a step that turns a value into another one until it answers nothing. -/
def iterateAtMost {α : Type} (step : α → Parser (Option α)) : Nat → α → Parser α
  | 0, a => return a
  | n + 1, a => do
    match ← step a with
    | some a' => iterateAtMost step n a'
    | none => return a

/-- Repeats a step that reads something whenever it answers a value. -/
def iterate {α : Type} (step : α → Parser (Option α)) (a : α) : Parser α := do
  iterateAtMost step ((← get).rest.length + 1) a

/-- Collects what a step reads until it answers nothing. -/
def collect {α : Type} (step : Parser (Option α)) : Parser (List α) := do
  let items ← iterate (fun items => do
    match ← step with
    | some a => return some (a :: items)
    | none => return none) []
  return items.reverse

/-- One item and any further ones after commas; a comma behind the last item is refused. -/
def commaSeparated {α : Type} (e : Expect) (item : Parser α) : Parser (List α) := do
  let first ← item
  let more ← collect do
    if ← symbol? e "," then return some (← item) else return none
  return first :: more

/-- The text that a step reads, from its first token on. -/
def spanned {α : Type} (e : Expect) (p : Parser α) : Parser (α × String) := do
  let first := (← ahead e).place
  let a ← p
  return (a, first.textTo (← get))

end Parser

end Recast.Python
