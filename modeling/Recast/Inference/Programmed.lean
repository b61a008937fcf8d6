/-
  Inference/Programmed.lean --- a service that follows a program, for trying out the rest without a
  network.
-/
import Recast.Inference.Service

set_option autoImplicit false

namespace Recast

/-- A service that follows a program.  Answers depend on the prompt and on how many requests were
made before. -/
structure Programmed where
  respond : Prompt → Nat → Except InferenceError String
  /-- The pieces of answers, if the service streams. -/
  chunks : Option (Prompt → Nat → Except InferenceError (List String)) := none
  /-- How many requests were made. -/
  calls : Nat := 0
  /-- How many pieces were read. -/
  chunksRead : Nat := 0
  /-- Whether the requests are cancelled. -/
  isCancelled : Bool := false

namespace Programmed

/-- The name of the service. -/
def name : String := "mock_inference"

/-- An answer that is valid. -/
def usualAnswer : String :=
  "Here is the translation:\n\x60\x60\x60go\npackage common\n\n" ++
  "func Mock() int \x7b\n\treturn 1\n\x7d\n\x60\x60\x60\n"

/-- The service that always gives the same valid answer. -/
def usual : Programmed := { respond := fun _ _ => .ok usualAnswer }

/-- Answers of a list, one for each request; the last one is repeated. -/
def listed {α : Type} (answers : List (Except InferenceError α)) (n : Nat) :
    Except InferenceError α :=
  match answers[n]?.or answers.getLast? with
  | some answer => answer
  | none => .error (.malformed "no reply")

/-- Asks for an answer that comes at once. -/
def complete (prompt : Prompt) (p : Programmed) : Except InferenceError String × Programmed :=
  (if p.isCancelled then .error .cancelled else p.respond prompt p.calls,
    { p with calls := p.calls + 1 })

/-- Asks for an answer that comes piece by piece. -/
def stream (prompt : Prompt) (p : Programmed) :
    Except InferenceError (List String) × Programmed :=
  match p.chunks with
  | none => (.error .streamingUnsupported, p)
  | some chunks => (chunks prompt p.calls, { p with calls := p.calls + 1 })

/-- Reads the next piece of an answer: the piece, if there is one, and the pieces behind it. -/
def next (p : Programmed) : List String → Option Chunk × List String × Programmed
  | [] => (none, [], p)
  | chunk :: rest =>
    if p.isCancelled then (some (.error .cancelled), rest, p)
    else (some (.ok chunk), rest, { p with chunksRead := p.chunksRead + 1 })

/-- The service as others see it. -/
def service (p : Programmed) : Service Programmed where
  name := name
  streams := p.chunks.isSome
  complete := complete
  stream prompt p :=
    let (answer, p) := stream prompt p
    (answer.map fun chunks =>
      chunks.map fun chunk => if p.isCancelled then .error .cancelled else .ok chunk, p)
  taken n p := { p with chunksRead := p.chunksRead + n }
  cancelled p := (p.isCancelled, p)

end Programmed

end Recast
