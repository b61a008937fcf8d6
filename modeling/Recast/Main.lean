/-
  Main.lean --- the program.

  It reads the settings and the files that a run can see, makes the run on them as values, and
  writes back what the run changed.  No service on the network is asked, so that every request fails
  and every translation is a skeleton.
-/
import Recast.CommandLine.Load

set_option autoImplicit false

namespace Recast.CommandLine

/-- What the program says about its arguments. -/
def usage : String :=
  "Usage: modernize [OPTIONS] [INPUT]\n\n" ++
  "  -c, --config NAME=VALUE  set a configuration value\n" ++
  "  -f, --force              ignore cached translations\n" ++
  "  -o, --output DIR         where the Go module tree is written\n" ++
  "  -w, --workers N          how many files are converted at a time\n" ++
  "      --hint TEXT          domain knowledge for every prompt\n" ++
  "      --print-config-path  print where the config file is\n" ++
  "  -h, --help               print help"

/-- A service that is never reached. -/
def unreachable (name : String) : Service Unit where
  name := name
  streams := false
  complete := fun _ s => (.error (.service "no connection"), s)
  stream := fun _ s => (.error .streamingUnsupported, s)
  taken := fun _ s => s
  cancelled := fun s => (false, s)

/-- The Go tools, none of which is run. -/
def absentPrograms (s : Assessment.Settings) : Go.Programs :=
  { go := ⟨s.go⟩
    gofmt := ⟨s.gofmt⟩
    run := fun _ _ _ => .error .notFound }

/-- Prints lines for the user. -/
def complain (lines : List String) : IO Unit := lines.forM fun line => IO.eprintln line

/-- Puts what is on the disk at a place into a tree. -/
partial def readTree (place : List RawText) (files : Files) : IO Files := do
  let path := (← IO.currentDir) / (Files.pathOf place).text
  if ← path.isDir then
    let mut files := if place.isEmpty then files else files.put place .directory
    for entry in ← path.readDir do
      files ← readTree (place ++ [(entry.fileName : RawText)]) files
    return files
  else if ← path.pathExists then
    return files.put place (.file (← IO.FS.readBinFile path))
  else
    return files

/-- Makes the disk agree with a tree that was read from it and changed. -/
def writeTree (old new : Files) : IO Unit := do
  for (place, node) in new.nodes.entries do
    if old.nodes.get? place != some node then
      match node with
      | .directory => IO.FS.createDirAll (Files.pathOf place).text
      | .file content =>
        IO.FS.createDirAll (Files.pathOf place.dropLast).text
        IO.FS.writeBinFile (Files.pathOf place).text content
  for (place, node) in old.nodes.entries do
    if (new.nodes.get? place).isNone && node != .directory then
      IO.FS.removeFile (Files.pathOf place).text

/-- The text of a settings file, if there is one. -/
def readText (path : Path) : IO (List String) := do
  try
    return [← IO.FS.readFile path.text]
  catch _ =>
    return []

/-- The place that a path leads to from the current directory. -/
def placeOf (here : List RawText) (path : Path) : List RawText :=
  ((Files.pathOf here).join path.raw).components.foldl (fun place c =>
    match c with
    | .normal name => place ++ [name]
    | .up => place.dropLast
    | _ => place) []

/-- Makes a run with settings. -/
def perform (s : RunSettings) (tools : Tools) : IO UInt32 := do
  let here := placeOf [] ⟨(← IO.currentDir).toString⟩
  let start : Files := { here }
  let start := (start.makeDirectories (Files.pathOf here)).2
  let mut files := start
  for path in [s.input, s.output] do
    let place := placeOf here path
    files := (files.makeDirectories (Files.pathOf place.dropLast)).2
    files ← readTree place files
  match Backend.ofSettings tools.requests.backend with
  | .error e =>
    complain ["ERROR Failed to set up the inference service: " ++ e.message]
    return 1
  | .ok backend =>
    let (v, log) := Assessment.Validator.detect tools.checks (absentPrograms tools.checks)
    let (report, shared) :=
      Run.run (unreachable backend.name) v (s.request tools) files ()
    complain ((tools.warnings ++ log ++ shared.log).map LogLine.render)
    match report with
    | .error e =>
      complain ["ERROR " ++ e.message]
      return 1
    | .ok _ =>
      writeTree files shared.files
      return 0

/-- Runs with arguments that were read. -/
def start (a : Arguments) : IO UInt32 := do
  match userFile? (← IO.getEnv "HOME") (← IO.getEnv "XDG_CONFIG_HOME") with
  | none =>
    complain ["Error: " ++ LoadError.noHome.message]
    return 1
  | some file =>
    if a.showsPlace then
      IO.println (placeLine file)
      return 0
    let (settings, unknown) := load a ((← readText file) ++ (← readText localFile))
    complain unknown
    match settings with
    | .error e =>
      complain ["Error: " ++ e.message]
      return 1
    | .ok s =>
      let (tools, unknown) := Tools.ofTable s.tools
      complain unknown
      match tools with
      | .error name =>
        complain ["ERROR invalid configuration for tools." ++ name]
        return 1
      | .ok tools => perform s tools

end Recast.CommandLine

/-- The program. -/
def main (args : List String) : IO UInt32 :=
  match Recast.CommandLine.Arguments.parse args with
  | .ok a => Recast.CommandLine.start a
  | .error .help => do
    IO.println Recast.CommandLine.usage
    return 0
  | .error e => do
    IO.eprintln ("error: " ++ e.label ++ "\n\n" ++ Recast.CommandLine.usage)
    return 2
