/-
  Reply/Tracker.lean --- taking the Go code out of an answer while the answer arrives.

  The code stands between a line that begins with three backticks and the next line in code that
  begins with blanks and three backticks; a line inside a string between backticks closes nothing.
  An answer without such a line is code as far as its lines end like Go statements.
-/
import Recast.Go.Lexer
import Recast.Reply.Code
import Recast.Inference

set_option autoImplicit false

namespace Recast.Reply

/-- When the rest of an answer may be left unread although its fence is still open. -/
structure EarlyStop where
  enabled : Bool
  /-- The number of pieces that must have arrived. -/
  minChunks : Nat
  deriving DecidableEq

/-- The answer is read to its end or to its closing fence. -/
def EarlyStop.disabled : EarlyStop := ⟨false, 0⟩

/-- Which part of an answer is being read. -/
inductive Phase where
  | seekingFence
  | inCode
  | closed
  deriving DecidableEq

/-- What is known about an answer after its characters so far. -/
structure Tracker where
  phase : Phase := .seekingFence
  /-- Everything in front of the code (reversed). -/
  seen : List Char := []
  /-- The line being read in front of the code (reversed). -/
  line : List Char := []
  /-- The code (reversed). -/
  code : List Char := []
  lexer : Go.Lexer := {}
  atLineStart : Bool := true
  /-- Blanks and backticks at the start of a code line that may become the closing fence
  (reversed). -/
  pending : List Char := []

namespace Tracker

/-- The backticks of a fence. -/
def fence : List Char := ['\x60', '\x60', '\x60']

/-- The state after a character in front of the code. -/
def seek (t : Tracker) (c : Char) : Tracker :=
  let t := { t with seen := c :: t.seen }
  if c = '\n' then
    if fence.isPrefixOf (Text.trimStart t.line.reverse) then
      { t with phase := .inCode, atLineStart := true, line := [] }
    else { t with line := [] }
  else { t with line := c :: t.line }

/-- The state with one more character of code. -/
def emit (t : Tracker) (c : Char) : Tracker :=
  { t with code := c :: t.code, lexer := t.lexer.step c }

/-- Whether a character may go on with a closing fence at the start of a line. -/
def continuesFence (t : Tracker) (c : Char) : Bool :=
  c == '\x60' || ((c == ' ' || c == '\t') && t.pending.count '\x60' == 0)

/-- The state with what was held back at the start of a line given to the code. -/
def release (t : Tracker) : Tracker :=
  t.pending.reverse.foldl emit { t with atLineStart := false, pending := [] }

/-- The state after a character of the code. -/
def inCode (t : Tracker) (c : Char) : Tracker :=
  if t.atLineStart && !t.lexer.inRawString then
    if t.continuesFence c then
      let t := { t with pending := c :: t.pending }
      if t.pending.count '\x60' = 3 then { t with phase := .closed } else t
    else { t.release.emit c with atLineStart := c == '\n' }
  else { t.emit c with atLineStart := c == '\n' }

/-- The state after a character. -/
def step (t : Tracker) (c : Char) : Tracker :=
  match t.phase with
  | .seekingFence => t.seek c
  | .inCode => t.inCode c
  | .closed => t

/-- Whether a character has completed a declaration, so that reading may stop behind it.  The state
is that after the character. -/
def completes (stop : EarlyStop) (chunks : Nat) (before after : Tracker) (c : Char) : Bool :=
  before.phase == .inCode && after.phase == .inCode && c == '}' && stop.enabled &&
    stop.minChunks ≤ chunks && after.lexer.opened && after.lexer.balanced

/-- The state after a piece of the answer, and whether the rest of the answer is not needed. -/
def feed (stop : EarlyStop) (chunks : Nat) : Tracker → List Char → Tracker × Bool
  | t, [] => (t, t.phase == .closed)
  | t, c :: cs =>
    if t.phase = .closed then (t, true)
    else
      let t' := t.step c
      if t'.phase = .closed || completes stop chunks t t' c then (t', true)
      else feed stop chunks t' cs

/-- The code of an answer that ends here. -/
def finish (t : Tracker) : List Char :=
  match t.phase with
  | .seekingFence => unfencedCode t.seen.reverse
  | .inCode => tidy (t.code.reverse ++ t.pending.reverse)
  | .closed => tidy t.code.reverse

end Tracker

/-- The code taken out of an answer. -/
structure Extraction where
  code : String
  /-- How many pieces of the answer were read; none of an answer that came at once. -/
  chunks : Nat
  /-- Whether the answer was left before its end. -/
  stoppedEarly : Bool
  deriving DecidableEq

/-- The code in an answer that came at once. -/
def codeOf (text : List Char) : List Char :=
  (Tracker.feed .disabled 0 {} text).1.finish

/-- The extraction from an answer that came at once. -/
def ofComplete (text : String) : Extraction := ⟨String.ofList (codeOf text.toList), 0, false⟩

/-- Reads pieces of an answer, `count` of which were read before, until the code is complete.
Answers how many were read in all and the result. -/
def readChunks (stop : EarlyStop) (t : Tracker) (count : Nat) :
    List Chunk → Nat × Except InferenceError Extraction
  | [] => (count, .ok ⟨String.ofList t.finish, count, false⟩)
  | .error e :: _ => (count + 1, .error e)
  | .ok chunk :: rest =>
    match t.feed stop (count + 1) chunk.toList with
    | (t, true) => (count + 1, .ok ⟨String.ofList t.finish, count + 1, true⟩)
    | (t, false) => readChunks stop t (count + 1) rest

/-- The extraction from an answer that arrives in pieces, and how many pieces were read. -/
def ofChunks (stop : EarlyStop) (chunks : List Chunk) : Nat × Except InferenceError Extraction :=
  readChunks stop {} 0 chunks

end Recast.Reply
