/-
  Log.lean --- what a step has to say about its work.
-/

set_option autoImplicit false

namespace Recast

/-- How much a message matters. -/
inductive Level where
  | info
  | warn
  | error
  deriving DecidableEq

/-- The name of a level. -/
def Level.label : Level → String
  | .info => "INFO"
  | .warn => "WARN"
  | .error => "ERROR"

/-- A message. -/
structure LogLine where
  level : Level
  text : String
  deriving DecidableEq

namespace LogLine

/-- A remark. -/
def info (text : String) : LogLine := ⟨.info, text⟩

/-- A warning. -/
def warn (text : String) : LogLine := ⟨.warn, text⟩

/-- A failure. -/
def error (text : String) : LogLine := ⟨.error, text⟩

/-- A message behind the name of its level. -/
def render (l : LogLine) : String := l.level.label ++ " " ++ l.text

end LogLine

/-- Messages in the order in which they were given. -/
abbrev Log := List LogLine

/-- The warnings and failures of a log. -/
def Log.problems (log : Log) : Log := log.filter fun l => l.level != .info

end Recast
