/-
  Inference/Service.lean --- the service that writes code, seen from the side that asks.

  Nothing is assumed about a service: it answers, fails or breaks off as it likes, and what it does
  may depend on everything that it was asked before.
-/
import Recast.Inference

set_option autoImplicit false

namespace Recast

/-- A service whose state is in `σ`. -/
structure Service (σ : Type) where
  /-- The name that translations are signed with. -/
  name : String
  /-- Whether answers are asked for piece by piece. -/
  streams : Bool
  /-- Asks for an answer that comes at once. -/
  complete : Prompt → σ → Except InferenceError String × σ
  /-- Asks for an answer that comes piece by piece. -/
  stream : Prompt → σ → Except InferenceError (List Chunk) × σ
  /-- Tells how many pieces of the last answer were read. -/
  taken : Nat → σ → σ
  /-- Whether the work is to be given up, asked at some moment. -/
  cancelled : σ → Bool × σ

end Recast
