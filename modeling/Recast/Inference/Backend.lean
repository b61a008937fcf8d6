/-
  Inference/Backend.lean --- how a service on the network is asked for.
-/
import Recast.Inference
import Recast.Text.Case

set_option autoImplicit false

namespace Recast

/-- How a service on the network is asked for. -/
structure Backend.Settings where
  /-- Where the service is found, if that is not clear from the backend. -/
  address : Option String := none
  apiKey : Option String := none
  backend : String := "ollama"
  model : String := "qwen2.5-coder:7b"
  /-- The longest answer. -/
  maxTokens : Nat := 4096
  /-- The longest time for an answer, in seconds. -/
  timeoutSeconds : Nat := 180
  /-- Whether answers are asked for piece by piece. -/
  stream : Bool := true
  deriving DecidableEq, Inhabited

/-- A service on the network that can be asked. -/
structure Backend where
  /-- The name of the service, which is that of its model. -/
  name : String
  streams : Bool
  deriving DecidableEq

namespace Backend

/-- The backends that can be asked for. -/
def known : List String :=
  ["openai", "anthropic", "ollama", "deepseek", "xai", "phind", "google", "groq", "azure-openai",
   "elevenlabs", "cohere", "mistral", "openrouter", "huggingface", "aws-bedrock"]

/-- The longest time for an answer. -/
def Settings.timeout (s : Settings) : Duration := .ofSeconds s.timeoutSeconds

/-- The text that stands for a key, which is never shown. -/
def hiddenKey : String := "********"

/-- The service that the settings ask for.  The letters of a backend may be upper-case. -/
def ofSettings (s : Settings) : Except InferenceError Backend :=
  if known.contains (Text.lowered s.backend) then .ok ⟨s.model, s.stream⟩
  else .error (.service
    ("unknown LLM backend: Invalid request: Unknown LLM backend: " ++ s.backend))

end Backend

end Recast
