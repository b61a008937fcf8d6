/-
  Inference.lean --- requests to the service that writes code, and what can go wrong with them.
-/
import Recast.Duration

set_option autoImplicit false

namespace Recast

/-- A request to the service. -/
structure Prompt where
  system : String := ""
  user : String := ""
  deriving DecidableEq, Inhabited

/-- Why a request was not answered. -/
inductive InferenceError where
  | timeout (after : Duration)
  | cancelled
  | service (reason : String)
  | malformed (reason : String)
  | streamingUnsupported
  deriving DecidableEq, Inhabited

namespace InferenceError

/-- The wording of the error. -/
def message : InferenceError → String
  | .timeout after => "request timed out after " ++ after.render
  | .cancelled => "request cancelled"
  | .service reason => "inference service error: " ++ reason
  | .malformed reason => "malformed response: " ++ reason
  | .streamingUnsupported => "service does not support streaming"

/-- Whether the same request may be answered when it is made again. -/
def isRetryable (e : InferenceError) : Bool := e != .cancelled

end InferenceError

/-- A piece of an answer that arrives bit by bit, or the error that ends it. -/
abbrev Chunk := Except InferenceError String

end Recast
