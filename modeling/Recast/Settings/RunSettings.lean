/-
  Settings/RunSettings.lean --- the settings of a run as a whole, and how they come about.

  Settings are given in layers, each of which is laid over those before it.  The last layer is what
  was asked for on the command line.  The tables of the parts are kept as they are: whoever needs a
  part reads its table.
-/
import Recast.Run.Basic
import Recast.Settings.Defaults
import Recast.Settings.KeyPath

set_option autoImplicit false

namespace Recast

/-- The settings of a run. -/
structure RunSettings where
  input : Path
  output : Path
  /-- Whether translations in the cache are passed over. -/
  force : Bool
  /-- What of the log is shown. -/
  logFilter : String
  /-- The number of files that are worked on at a time. -/
  workers : Nat
  /-- Hints that every prompt shows. -/
  hints : List String
  /-- The tables of the parts. -/
  tools : Json

namespace RunSettings

open Settings

/-- The names of the settings. -/
def fields : List String :=
  ["input", "output", "force", "log_filter", "workers", "business_hints", "tools"]

/-- The names among some that no setting has. -/
def unknownNames (names : List String) : List String := names.filter fun n => !fields.contains n

/-- The settings that hold if nothing is said. -/
def defaults : Json :=
  table fields ["", "go_out", false, "info", (4 : Nat), .array [], ({} : Tools).toTable]

/-- A layer of settings: values and their places. -/
abbrev Layer := List (KeyPath × Json)

/-- The layer that a table gives: each key stands for the place that it writes. -/
def layerOf (table : Json) : Layer :=
  (table.members?.getD []).map fun (key, v) => (KeyPath.ofKey key, v)

/-- Settings with a layer laid over them. -/
def apply (settings : Json) (layer : Layer) : Json :=
  layer.foldl (fun settings (place, v) => place.put v settings) settings

/-- The settings that layers give together. -/
def ofLayers (layers : List Layer) : Json := layers.foldl apply (.object [])

/-- Reads the settings of a run. -/
def ofTable? (settings : Json) : Option RunSettings := do
  let get := member? (← settings.members?)
  return {
    input := ⟨← (get "input").bind text?⟩
    output := ⟨← (get "output").bind text?⟩
    force := ← field? get "force" bool? false
    logFilter := ← field? get "log_filter" text? "info"
    workers := ← field? get "workers" nat? 4
    hints := ← field? get "business_hints" (listOf? text?) []
    tools := ← field? get "tools" (fun v => v.members?.map .object) (.object []) }

/-- The request for a run, once the tables of the parts were read. -/
def request (s : RunSettings) (tools : Tools) : Run.Request :=
  { input := s.input
    output := s.output
    force := s.force
    workers := s.workers
    hints := s.hints
    tools }

end RunSettings

end Recast
