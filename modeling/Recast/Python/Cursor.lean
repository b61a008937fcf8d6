/-
  Python/Cursor.lean --- places in a Python file and what stands at them.

  Line ends and indentation have a meaning only where the grammar admits one.  At each place the
  grammar says what it would accept there (`Expect`); from that and from the blanks and comments
  in front of the next token follows whether a line ends, a block begins, a block ends, or the
  blanks are just blanks.
-/

set_option autoImplicit false

namespace Recast.Python

/-- A place in a file: the text from there on, its line number, and the indentation of the blocks
around it, innermost first. -/
structure Cursor where
  rest : List Char
  line : Nat
  indents : List Nat
  /-- Whether the place is inside a replacement field of a string. -/
  inField : Bool

namespace Cursor

/-- The start of a file. -/
def start (text : List Char) : Cursor := ⟨text, 1, [], false⟩

/-- The indentation of the innermost block. -/
def indent (c : Cursor) : Nat := c.indents.headD 0

/-- The place a number of characters further on. -/
def advance (n : Nat) (c : Cursor) : Cursor :=
  { c with rest := c.rest.drop n, line := c.line + (c.rest.take n).count '\n' }

/-- The place where only `rest` is left of the text. -/
def moveTo (rest : List Char) (c : Cursor) : Cursor := c.advance (c.rest.length - rest.length)

/-- The text between two places of a file. -/
def textTo (c later : Cursor) : String :=
  String.ofList (c.rest.take (c.rest.length - later.rest.length))

theorem rest_advance (n : Nat) (c : Cursor) : (c.advance n).rest = c.rest.drop n := rfl

end Cursor

/-- What the grammar admits at a place. -/
structure Expect where
  /-- The end of a line. -/
  newline : Bool := false
  /-- The beginning of an indented block. -/
  indent : Bool := false
  /-- The end of an indented block. -/
  dedent : Bool := false
  /-- A closing bracket. -/
  close : Bool := false
  /-- A string literal. -/
  text : Bool := false
  /-- An exception handler. -/
  handler : Bool := false

/-! ## Margins -/

/-- The blanks and comments in front of a token. -/
structure Margin where
  /-- Whether they hold the end of a line. -/
  ended : Bool
  /-- The indentation in front of the token. -/
  column : Nat
  /-- The indentation of the first comment line. -/
  comment : Option Nat
  /-- The text from the token on. -/
  rest : List Char

/-- What a margin scan is in the middle of. -/
inductive MarginState where
  | blanks
  | comment
  | backslash
  | backslashReturn

/-- The margin in front of the next token.  A tab counts eight columns; a carriage return and a
form feed start the count again.  There is none if a comment shares its line with the token before
it, or if a backslash does not end its line.  Comments are part of the margin only if `comments`
is set; otherwise a comment counts as the next token. -/
def scanMargin (comments : Bool) : MarginState → Bool → Nat → Option Nat → List Char → Option Margin
  | _, _, _, first, [] => some ⟨true, 0, first, []⟩
  | .backslash, ended, column, first, c :: cs =>
    if c = '\r' then scanMargin comments .backslashReturn ended column first cs
    else if c = '\n' then scanMargin comments .blanks ended column first cs
    else none
  | .backslashReturn, ended, column, first, c :: cs =>
    if c = '\n' then scanMargin comments .blanks ended column first cs else none
  | .comment, ended, column, first, c :: cs =>
    if c = '\n' then scanMargin comments .blanks true 0 first cs
    else scanMargin comments .comment ended column first cs
  | .blanks, ended, column, first, c :: cs =>
    if c = '\n' then scanMargin comments .blanks true 0 first cs
    else if c = ' ' then scanMargin comments .blanks ended (column + 1) first cs
    else if c = '\r' ∨ c = '\x0c' then scanMargin comments .blanks ended 0 first cs
    else if c = '\t' then scanMargin comments .blanks ended (column + 8) first cs
    else if c = '#' ∧ comments then
      if ended then scanMargin comments .comment ended column (some (first.getD column)) cs
      else none
    else if c = '\\' then scanMargin comments .backslash ended column first cs
    else some ⟨ended, column, first, c :: cs⟩

/-- The margin at a place. -/
def Cursor.margin (e : Expect) (c : Cursor) : Option Margin :=
  scanMargin (e.indent || e.dedent || e.newline || e.handler) .blanks false 0 none c.rest

/-- A quote character. -/
def isQuote (c : Char) : Bool := c == '"' || c == '\'' || c == '\x60'

/-- A letter that may stand in front of a string literal. -/
def isTextPrefix (c : Char) : Bool := "fFrRbBuU".toList.contains c

/-- Whether a string literal begins here. -/
def beginsText (cs : List Char) : Bool := (cs.dropWhile isTextPrefix).head?.any isQuote

/-- The meaning of a margin. -/
inductive Layout where
  | newline
  | indent (column : Nat)
  | dedent
  deriving DecidableEq

/-- What a margin means at a place.  A block begins where one may begin and the next line is
indented deeper than the block around it.  A block ends where the next line is indented less and no
comment before it still belongs to the block; a place that admits neither a line end, a closing
bracket nor the string literal that follows ends the block as well, and the grammar then refuses
the text. -/
def Margin.layout (e : Expect) (c : Cursor) (m : Margin) : Option Layout :=
  if !m.ended then none
  else if e.indent && m.column > c.indent then some (.indent m.column)
  else if (e.dedent || (!e.newline && !(e.text && m.rest.head?.any isQuote) && !e.close)) &&
      m.column < c.indent && !c.inField && m.comment.all (· < c.indent) then some .dedent
  else if e.newline then some .newline
  else none

/-! ## The next token -/

/-- A blank that may stand between tokens. -/
def isSpace (c : Char) : Bool :=
  c == ' ' || (9 ≤ c.toNat && c.toNat ≤ 13) || c.toNat == 0xFEFF || c.toNat == 0x2060 ||
    c.toNat == 0x200B

/-- What stands at a place. -/
inductive Next where
  /-- The meaning of the margin. -/
  | layout (meaning : Layout)
  /-- The end of the file. -/
  | finish
  /-- A string literal. -/
  | text
  /-- Any other character. -/
  | code (c : Char)

/-- The next token: what it is, where it begins, and the comments and joined line ends that stand
in front of it. -/
structure Ahead where
  next : Next
  place : Cursor
  extras : List String

/-- The number of characters of a backslash with the line end after it. -/
def joinedLineEnd? : List Char → Option Nat
  | '\\' :: '\n' :: _ => some 2
  | '\\' :: '\r' :: '\n' :: _ => some 3
  | _ => none

theorem length_dropWhile_le (p : Char → Bool) (cs : List Char) :
    (cs.dropWhile p).length ≤ cs.length :=
  (List.dropWhile_sublist p).length_le

/-- The next token at a place, behind the comments and joined line ends read so far. -/
def Cursor.aheadFrom (e : Expect) (extras : List String) (c : Cursor) : Ahead :=
  let margin := c.margin e
  match margin.bind (Margin.layout e c) with
  | some meaning => ⟨.layout meaning, c, extras⟩
  | none =>
    let literal := margin.filter fun m => e.text && m.comment.isNone && beginsText m.rest
    match literal with
    | some m => ⟨.text, c.moveTo m.rest, extras⟩
    | none =>
      let c' := c.moveTo (c.rest.dropWhile isSpace)
      match _h : c.rest.dropWhile isSpace with
      | [] => ⟨.finish, c', extras⟩
      | '#' :: cs =>
        let comment := '#' :: cs.takeWhile (· != '\n')
        aheadFrom e (extras ++ [String.ofList comment]) (c.moveTo (cs.dropWhile (· != '\n')))
      | x :: cs =>
        match _h' : joinedLineEnd? (x :: cs) with
        | some n =>
          aheadFrom e (extras ++ [String.ofList ((x :: cs).take n)]) (c.moveTo ((x :: cs).drop n))
        | none => ⟨.code x, c', extras⟩
termination_by c.rest.length
decreasing_by
  · have h₁ := length_dropWhile_le isSpace c.rest
    have h₂ := length_dropWhile_le (· != '\n') cs
    rw [_h] at h₁
    simp only [Cursor.moveTo, Cursor.rest_advance, List.length_drop, List.length_cons] at *
    omega
  · have h₁ := length_dropWhile_le isSpace c.rest
    rw [_h] at h₁
    have hn : 0 < n := by
      unfold joinedLineEnd? at _h'
      split at _h' <;> simp_all <;> omega
    simp only [Cursor.moveTo, Cursor.rest_advance, List.length_drop, List.length_cons] at *
    omega

/-- The next token at a place. -/
def Cursor.ahead (e : Expect) (c : Cursor) : Ahead := c.aheadFrom e []

end Recast.Python
