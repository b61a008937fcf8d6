/-
  Proofs/Conversion/Requests.lean --- services that are watched.

  A service can be made to write down what it is asked (`Service.recorded`); what it is asked about a
  file are prompts for that file (`Translator.promptsFor`).
-/
import Recast.Proofs.Conversion.Translate

set_option autoImplicit false

namespace Recast

variable {σ : Type}

/-- A service that also writes down what it is asked. -/
def Service.recorded (s : Service σ) : Service (σ × List Prompt) where
  name := s.name
  streams := s.streams
  complete prompt o := ((s.complete prompt o.1).1, (s.complete prompt o.1).2, o.2 ++ [prompt])
  stream prompt o := ((s.stream prompt o.1).1, (s.stream prompt o.1).2, o.2 ++ [prompt])
  taken n o := (s.taken n o.1, o.2)
  cancelled o := ((s.cancelled o.1).1, (s.cancelled o.1).2, o.2)

/-- Nobody ever gives up the work. -/
def Service.GoesOn (s : Service σ) : Prop := ∀ o, (s.cancelled o).1 = false

theorem Service.GoesOn.recorded {s : Service σ} (h : s.GoesOn) : s.recorded.GoesOn :=
  fun o => h o.1

/-- The prompts for a file: what they say about other files and hints may be anything. -/
def Conversion.Translator.promptsFor (t : Translator σ) (item : Item) (prompt : Prompt) : Prop :=
  ∃ related, prompt = PromptText.build t.settings.topK item.source (item.outline.getD {}) related
    t.settings.hints item.module

end Recast
