/-
  Python/Literal.lean --- string literals.

  A literal is read in pieces: runs of plain characters, escapes, doubled braces and replacement
  fields.  A line end may stand in a literal with single quotes only at the beginning of a piece.
-/
import Recast.Python.Goal

set_option autoImplicit false

namespace Recast.Python

/-- The kind of a string literal. -/
structure TextStyle where
  format : Bool
  raw : Bool
  bytes : Bool
  quote : Char
  triple : Bool

/-- The kind of the literal at the start of a text, and the length of its opening. -/
def textStyle? (cs : List Char) : Option (TextStyle × Nat) :=
  let letters := cs.takeWhile isTextPrefix
  let has (c : Char) (d : Char) : Bool := letters.contains c || letters.contains d
  match cs.dropWhile isTextPrefix with
  | q :: rest =>
    if isQuote q then
      let triple := q != '\x60' && [q, q].isPrefixOf rest
      some (⟨has 'f' 'F', has 'r' 'R', has 'b' 'B', q, triple⟩,
        letters.length + if triple then 3 else 1)
    else none
  | [] => none

/-- Whether the text begins with a number of hexadecimal digits. -/
def startsWithHex (n : Nat) (cs : List Char) : Bool :=
  (cs.take n).length == n && (cs.take n).all isHexDigit

/-- The number of characters of an escape sequence at the start of a text; a backslash that begins
none stands alone. -/
def escapeLength : List Char → Nat
  | '\\' :: c :: cs =>
    if c == 'u' && startsWithHex 4 cs then 6
    else if c == 'U' && startsWithHex 8 cs then 10
    else if c == 'x' && startsWithHex 2 cs then 4
    else if Text.isAsciiDigit c && (cs.take 2).length == 2 &&
        (cs.take 2).all Text.isAsciiDigit then 4
    else if c == '\n' then 2
    else if c == '\r' && cs.head? == some '\n' then 3
    else if "'\"abfrntv\\".toList.contains c then 2
    else if c == 'N' && cs.head? == some '\x7b' then
      let name := cs.tail.takeWhile (· != '\x7d')
      if !name.isEmpty && name.length < cs.tail.length then name.length + 4 else 1
    else 1
  | _ => 1

/-- The number of characters that a backslash protects in a raw literal, itself included. -/
def rawBackslashLength (quote : Char) : List Char → Nat
  | '\\' :: cs =>
    let quoted := cs.head?.any fun c => c == quote || c == '\\'
    let cs := if quoted then cs.tail else cs
    let n := if quoted then 2 else 1
    match cs with
    | '\r' :: '\n' :: _ => n + 2
    | '\r' :: _ => n + 1
    | '\n' :: _ => n + 1
    | _ => n
  | _ => 1

/-- The end of one piece of a literal. -/
inductive TextPiece where
  /-- Characters that stand for themselves. -/
  | plain (length : Nat)
  /-- Characters after which a new piece begins. -/
  | escape (length : Nat)
  /-- An opening brace of a replacement field. -/
  | field
  /-- The closing quotes. -/
  | close (length : Nat)
  /-- Nothing that a literal may hold. -/
  | invalid

/-- What comes next in a literal. -/
def textPiece (s : TextStyle) (fresh : Bool) (cs : List Char) : TextPiece :=
  match cs with
  | [] => .invalid
  | c :: rest =>
    if c == '\x00' then .invalid
    else if s.format && c == '\x7b' then
      if rest.head? == some '\x7b' then .escape 2 else .field
    else if s.format && c == '\x7d' then
      if rest.head? == some '\x7d' then .escape 2 else .invalid
    else if c == '\\' then
      if s.raw then
        let n := rawBackslashLength s.quote cs
        if fresh then .escape n else .plain n
      else if s.bytes && rest.head?.any (fun c => c == 'N' || c == 'u' || c == 'U') then .plain 3
      else .escape (escapeLength cs)
    else if c == s.quote then
      if !s.triple then .close 1
      else if [s.quote, s.quote].isPrefixOf rest then .close 3
      else .escape 1
    else if c == '\n' && !fresh && !s.triple then .invalid
    else .plain 1

/-- The rest of a literal after its opening, with the expressions in its fields. -/
def textTail (nested : Nested) (s : TextStyle) : Nat → Bool → List Expr → Parser (List Expr)
  | 0, _, _ => failure
  | fuel + 1, fresh, fields => do
    let c ← get
    match textPiece s fresh c.rest with
    | .invalid => failure
    | .plain n =>
      set (c.advance n)
      textTail nested s fuel false fields
    | .escape n =>
      set (c.advance n)
      textTail nested s fuel true fields
    | .close n =>
      set (c.advance n)
      return fields
    | .field =>
      set { c.advance 1 with inField := true }
      let more ← nested _ .field
      modify fun after => { after with inField := c.inField }
      textTail nested s fuel true (fields ++ more)

/-- A string literal that begins at the next token. -/
def textLiteral (nested : Nested) (e : Expect) : Parser Expr := do
  let a ← Parser.ahead e
  match a.next with
  | .text =>
    match textStyle? a.place.rest with
    | some (s, opening) =>
      set (a.place.advance opening)
      let fields ← textTail nested s (a.place.rest.length + 1) true []
      return .string (a.place.textTo (← get)) fields
    | none => failure
  | _ => failure

/-- String literals in a row.  Several ones make up one expression that is no literal itself. -/
def textLiterals (nested : Nested) (e : Expect) (f : Follow) : Parser Expr := do
  let first ← textLiteral nested e
  let more ← Parser.collect do
    match (← Parser.ahead f.orOperand).next with
    | .text => return some (← textLiteral nested f.orOperand)
    | _ => return none
  if more.isEmpty then return first else return .compound (first :: more)

/-! ## Replacement fields -/

/-- The part of a replacement field after its colon, up to the closing brace. -/
def formatTail (nested : Nested) : Nat → List Expr → Parser (List Expr)
  | 0, _ => failure
  | fuel + 1, fields => do
    let c ← get
    match c.rest with
    | [] => failure
    | x :: _ =>
      if x == '\x7d' then return fields
      else if x == '\x7b' then
        set (c.advance 1)
        let more ← nested _ .field
        formatTail nested fuel (fields ++ more)
      else
        set (c.advance 1)
        formatTail nested fuel fields

/-- The conversion mark of a replacement field. -/
def conversionMark (e : Expect) : Parser Unit := do
  let a ← Parser.ahead e
  match a.next, a.place.rest with
  | .code _, '!' :: c :: _ =>
    if 'a' ≤ c ∧ c ≤ 'z' then set (a.place.advance 2)
  | _, _ => return ()

end Recast.Python
