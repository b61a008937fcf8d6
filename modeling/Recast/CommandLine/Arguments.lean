/-
  CommandLine/Arguments.lean --- reading the arguments of the program.

  Arguments are read from left to right.  An option whose value is not attached to it waits for the
  next argument, and a value that has arrived is looked at when the next known argument comes.  So
  of several faults the first one is reported, but an unknown argument wins over a bad value in
  front of it.
-/
import Recast.Settings.Value
import Recast.Text.Search

set_option autoImplicit false

namespace Recast.CommandLine

/-- What the arguments ask for. -/
structure Arguments where
  /-- Settings, each as a place and a value. -/
  settings : List String := []
  force : Bool := false
  input : Option String := none
  /-- Whether only the place of the settings file is asked for. -/
  showsPlace : Bool := false
  output : Option String := none
  workers : Option Nat := none
  hints : List String := []
  deriving DecidableEq, Inhabited

/-- Why arguments cannot be used. -/
inductive UsageError where
  /-- An argument that no one knows, or a second input. -/
  | unknown
  /-- A value is missing, or a path is empty. -/
  | noValue
  /-- A value is no number. -/
  | badNumber
  /-- An argument that stands once stands twice. -/
  | repeated
  /-- A value is attached to an argument that takes none. -/
  | valueNotTaken
  /-- Help is asked for. -/
  | help
  deriving DecidableEq, Inhabited

/-- The name of a usage error. -/
def UsageError.label : UsageError → String
  | .unknown => "UnknownArgument"
  | .noValue => "InvalidValue"
  | .badNumber => "ValueValidation"
  | .repeated => "ArgumentConflict"
  | .valueNotTaken => "TooManyValues"
  | .help => "DisplayHelp"

/-- An argument that takes a value. -/
inductive Slot where
  | setting
  | hint
  | output
  | workers
  | input
  deriving DecidableEq, Inhabited

/-- An argument that takes no value. -/
inductive Switch where
  | force
  | showPlace
  | help
  deriving DecidableEq, Inhabited

/-- What a name can stand for. -/
inductive Role where
  | slot (slot : Slot)
  | switch (switch : Switch)
  deriving DecidableEq, Inhabited

/-- The role of a name behind two dashes. -/
def longRole? : String → Option Role
  | "config" => some (.slot .setting)
  | "hint" => some (.slot .hint)
  | "output" => some (.slot .output)
  | "workers" => some (.slot .workers)
  | "force" => some (.switch .force)
  | "print-config-path" => some (.switch .showPlace)
  | "help" => some (.switch .help)
  | _ => none

/-- The role of a letter behind one dash. -/
def shortRole? : Char → Option Role
  | 'c' => some (.slot .setting)
  | 'o' => some (.slot .output)
  | 'w' => some (.slot .workers)
  | 'f' => some (.switch .force)
  | 'h' => some (.switch .help)
  | _ => none

namespace Arguments

/-- A path, which must not be empty and must not have been given before. -/
def path (old : Option String) (value : String) : Except UsageError (Option String) :=
  if old.isSome then .error .repeated
  else if value.isEmpty then .error .noValue
  else .ok (some value)

/-- The arguments with a value put into its slot. -/
def put (a : Arguments) (slot : Slot) (value : String) : Except UsageError Arguments :=
  match slot with
  | .setting => .ok { a with settings := a.settings ++ [value] }
  | .hint => .ok { a with hints := a.hints ++ [value] }
  | .output => (path a.output value).map fun output => { a with output }
  | .input => (path a.input value).map fun input => { a with input }
  | .workers =>
    if a.workers.isSome then .error .repeated
    else match Settings.digits? value with
      | some n => .ok { a with workers := some n }
      | none => .error .badNumber

/-- The arguments with a switch turned on. -/
def turnOn (a : Arguments) : Switch → Except UsageError Arguments
  | .force => if a.force then .error .repeated else .ok { a with force := true }
  | .showPlace => if a.showsPlace then .error .repeated else .ok { a with showsPlace := true }
  | .help => .error .help

end Arguments

/-- What was read so far. -/
structure Reading where
  arguments : Arguments := {}
  /-- A slot that was named last, and its value if that has arrived. -/
  pending : Option (Slot × Option String) := none

namespace Reading

/-- Looks at the pending value. -/
def settle (r : Reading) : Except UsageError Arguments :=
  match r.pending with
  | none => .ok r.arguments
  | some (_, none) => .error .noValue
  | some (slot, some value) => r.arguments.put slot value

/-- The slot that waits for a value. -/
def awaited? (r : Reading) : Option Slot :=
  match r.pending with
  | some (slot, none) => some slot
  | _ => none

/-- Whether the input was given. -/
def hasInput (r : Reading) : Bool :=
  r.arguments.input.isSome || r.pending.any fun p => p.1 == .input

/-- Reads a slot with the value that is attached to it, if there is one. -/
def slot (r : Reading) (slot : Slot) (value : Option String) : Except UsageError Reading := do
  let a ← r.settle
  match value with
  | some v => return { arguments := ← a.put slot v }
  | none => return { arguments := a, pending := some (slot, none) }

/-- Reads a switch. -/
def switch (r : Reading) (s : Switch) : Except UsageError Reading := do
  return { arguments := ← (← r.settle).turnOn s }

/-- Reads a name behind two dashes. -/
def long (r : Reading) (name : String) (value : Option String) : Except UsageError Reading :=
  match longRole? name with
  | none => .error .unknown
  | some (.slot s) => r.slot s value
  | some (.switch s) => if value.isSome then .error .valueNotTaken else r.switch s

/-- Reads the letters behind one dash.  What follows the letter of a slot is its value, with or
without an equals sign. -/
def short (r : Reading) : List Char → Except UsageError Reading
  | [] => .ok r
  | c :: cs =>
    match shortRole? c, cs with
    | none, _ => .error .unknown
    | some (.switch s), cs => do (← r.switch s).short cs
    | some (.slot s), [] => r.slot s none
    | some (.slot s), '=' :: cs => r.slot s (some (String.ofList cs))
    | some (.slot s), cs => r.slot s (some (String.ofList cs))

/-- Reads an argument that belongs to no option, which is the input. -/
def plain (r : Reading) (arg : String) : Except UsageError Reading :=
  if r.hasInput then .error .unknown
  else do return { arguments := ← r.settle, pending := some (.input, some arg) }

/-- Reads an argument that is the value of the slot that waits for one, or the input. -/
def value (r : Reading) (arg : String) : Except UsageError Reading :=
  match r.awaited? with
  | some slot => .ok { r with pending := some (slot, some arg) }
  | none => r.plain arg

/-- Reads one argument. -/
def argument (r : Reading) (arg : String) : Except UsageError Reading :=
  match arg.toList with
  | '-' :: '-' :: cs =>
    match Text.cutAt? '=' cs with
    | some (name, v) => r.long (String.ofList name) (some (String.ofList v))
    | none => r.long (String.ofList cs) none
  | ['-'] => r.value arg
  | '-' :: cs => r.short cs
  | _ => r.value arg

/-- Reads the remaining arguments.  Behind two dashes alone nothing is an option. -/
def all (r : Reading) : List String → Except UsageError Arguments
  | [] => r.settle
  | "--" :: args => do (← args.foldlM plain r).settle
  | arg :: args => do (← r.argument arg).all args

end Reading

/-- Reads the arguments of the program. -/
def Arguments.parse (args : List String) : Except UsageError Arguments := ({} : Reading).all args

end Recast.CommandLine
