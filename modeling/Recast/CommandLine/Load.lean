/-
  CommandLine/Load.lean --- the settings that arguments and settings files give together.

  The settings file of the user is laid over the defaults, the one of the current directory over
  that, and the arguments over both.
-/
import Recast.CommandLine.Arguments
import Recast.Settings.RunSettings
import Recast.Text.Quoted
import Recast.Toml.Document

set_option autoImplicit false

namespace Recast.CommandLine

/-- Why there are no settings to run with. -/
inductive LoadError where
  | noHome
  /-- An argument that sets a value has no equals sign. -/
  | noEquals (argument : String)
  /-- A file, a place or a value is bad. -/
  | invalid
  | noInput
  | noWorkers
  deriving DecidableEq, Inhabited

/-- What is said about an error. -/
def LoadError.message : LoadError → String
  | .noHome => "no home directory to hold the user config file"
  | .noEquals argument =>
    "failed to parse config value " ++ Text.quoted argument ++ "; no '=' found"
  | .invalid => "invalid configuration"
  | .noInput => "no input given; pass a path or set \x60input\x60 in the config file"
  | .noWorkers => "the number of workers must be at least 1"

/-! ### The settings files -/

/-- The settings file of the user, in the directory for settings or else below the home directory.
-/
def userFile? (home settingsHome : Option String) : Option Path :=
  let base : Option Path :=
    match (settingsHome.map Path.ofString).filter Path.isAbsolute with
    | some p => some p
    | none => (home.filter fun h => !h.isEmpty).map fun h => (Path.ofString h).join ".config"
  base.map fun p => (p.join "modernize").join "translate.toml"

/-- The settings file of the current directory. -/
def localFile : Path := ⟨"config.toml"⟩

/-- The line that tells where the settings file of the user is. -/
def placeLine (file : Path) : String := "Config file location: " ++ Text.quoted file.text

/-! ### The layers -/

/-- The place and the value of an argument that sets a value. -/
def assignment (argument : String) : Except LoadError (Settings.KeyPath × Json) :=
  match Text.cutAt? '=' argument.toList with
  | none => .error (.noEquals argument)
  | some (place, v) =>
    match Settings.KeyPath.parse? (String.ofList place) with
    | none => .error .invalid
    | some place => .ok (place, .string (String.ofList v))

/-- The layer of the arguments.  A blank stands for a path, which is put in its place later. -/
def Arguments.layer (a : Arguments) : Except LoadError RunSettings.Layer := do
  let set (name : String) (v : Option Json) : RunSettings.Layer :=
    (v.map fun v => (⟨name, []⟩, v)).toList
  return (← a.settings.mapM assignment) ++
    set "force" (if a.force then some true else none) ++
    set "workers" (a.workers.map fun n => toString n) ++
    set "input" (a.input.map fun _ => " ") ++ set "output" (a.output.map fun _ => " ")

/-- The layer of a settings file. -/
def fileLayer (text : String) : Except LoadError RunSettings.Layer :=
  match Toml.parse? text with
  | some table => .ok (RunSettings.layerOf table)
  | none => .error .invalid

/-- The settings of arguments and of the texts of settings files, the later ones over the earlier
ones. -/
def Arguments.settingsOver (a : Arguments) (files : List String) : Except LoadError Json := do
  let layer ← a.layer
  return RunSettings.ofLayers
    ((RunSettings.layerOf RunSettings.defaults :: (← files.mapM fileLayer)) ++ [layer])

/-! ### The settings -/

/-- Settings that were read, with what the arguments say besides. -/
def Arguments.complete (a : Arguments) (s : RunSettings) : Except LoadError RunSettings :=
  let s := { s with
    input := (a.input.map Path.ofString).getD s.input
    output := (a.output.map Path.ofString).getD s.output
    hints := s.hints ++ a.hints }
  if s.input.raw.bytes.isEmpty then .error .noInput
  else if s.workers = 0 then .error .noWorkers
  else .ok s

/-- The settings of arguments and of the texts of settings files, and lines about unknown names. -/
def load (a : Arguments) (files : List String) : Except LoadError RunSettings × List String :=
  match a.settingsOver files with
  | .error e => (.error e, [])
  | .ok settings =>
    (match RunSettings.ofTable? settings with
      | none => .error .invalid
      | some s => a.complete s,
     Settings.unknownKeys "" RunSettings.fields settings)

end Recast.CommandLine
