/-
  Run/Basic.lean --- a whole run: every file is analyzed and indexed, then every file is translated
  and written, then the packages are checked and the report is made.

  What the steps share is one value, and each of the two passes is a fold of a step over the files
  (`analyzeAll`, `processAll`), so what a pass does follows from what a step does.
-/
import Recast.Layout.Output
import Recast.Run.ReportText
import Recast.Settings.Tools

set_option autoImplicit false

namespace Recast.Run

/-- What a run finds on the network. -/
structure Network where
  /-- The server of values for a cache. -/
  server : Cache.Settings → Except Cache.StoreError Cache.Server :=
    fun _ => .error (.server "no connection")
  /-- The client of a server of embeddings. -/
  client : Meaning.IndexSettings → Except String (String → Except String Meaning.Vector) :=
    fun _ => .ok fun _ => .error "embedding request failed: no connection"

/-- What is asked of a run, and the network that it is made on. -/
structure Request where
  input : Path
  output : Path
  /-- Whether translations in the cache are passed over. -/
  force : Bool := false
  /-- The number of files that are worked on at a time. -/
  workers : Nat := 4
  /-- Hints that every prompt shows. -/
  hints : List String := []
  tools : Tools := {}
  network : Network := {}

/-- The directory of an output that holds what a run leaves for the next one. -/
def stateDirectory (output : Path) : Path := output.join ".modernize"

/-- The directory that holds what the run leaves for the next one. -/
def Request.stateDirectory (r : Request) : Path := Run.stateDirectory r.output

/-- How the request wants translations to be asked for. -/
def Request.conversion (r : Request) : Conversion.Settings :=
  let s := r.tools.requests
  ⟨s.maxRetries, ⟨s.earlyStop, s.minChunks⟩, r.tools.topK, r.hints⟩

/-- What the steps of a run share. -/
structure Shared (σ : Type) where
  cache : Cache
  index : Meaning.Index
  files : Files
  /-- The state of the service. -/
  outside : σ
  log : Log := []

namespace Shared

variable {σ : Type}

/-- The shared state with something said. -/
def say (s : Shared σ) (lines : Log) : Shared σ := { s with log := s.log ++ lines }

/-- Opens the cache and the index that a request wants. -/
def openFor (r : Request) (files : Files) (outside : σ) : Shared σ :=
  let (cache, files, log₁) := Cache.openIn r.tools.cache.backend (r.network.server r.tools.cache)
    r.stateDirectory files
  let (index, log₂) := Meaning.Index.openIn r.tools.index (r.network.client r.tools.index)
    r.stateDirectory files
  { cache := { cache with force := r.force }, index, files, outside, log := log₁ ++ log₂ }

/-! ### The first pass -/

/-- The index without the records of a file. -/
def forget (path : Path) (s : Shared σ) : Shared σ :=
  { s with index := (s.index.removeFile path).2 }

/-- The index with the records of a file. -/
def learn (file : SourceFile) (outline : Outline) (s : Shared σ) : Shared σ :=
  match s.index.addOutline file.path file.path.stem outline with
  | (.ok _, index) => { s with index }
  | (.error e, index) =>
    { s with index }.say [.warn ("Failed to index " ++ file.path.text ++ ": " ++ e.message)]

/-- What is wrong with a file that does not parse. -/
def syntaxFailure (reason : String) : String := "syntax error: " ++ reason

/-- Analyzes a file whose outline the cache does not have. -/
def analyzeAnew (file : SourceFile) (s : Shared σ) : Except String Outline × Shared σ :=
  match Outline.ofBytes file.content with
  | .error e => (.error (syntaxFailure e.message), s.forget file.path)
  | .ok outline =>
    let (cache, files, log) := s.cache.putOutline s.files file.path file.digest outline
    (.ok outline, ({ s with cache, files }.say log).learn file outline)

/-- Analyzes a file.  An outline in the cache is used, and indexed if the index has lost the file.
-/
def analyze (file : SourceFile) (s : Shared σ) : Except String Outline × Shared σ :=
  match file.syntaxError with
  | some reason => (.error (syntaxFailure reason), s.forget file.path)
  | none =>
    match s.cache.outline? s.files file.path file.digest with
    | (some outline, cache, log) =>
      let s := { s with cache }.say log
      (.ok outline,
        if (s.index.fileMeaning? file.path).isNone then s.learn file outline else s)
    | (none, cache, log) => ({ s with cache }.say log).analyzeAnew file

/-- Saves the index. -/
def flush (s : Shared σ) : Shared σ :=
  match s.index.flush s.files with
  | (.ok (), files) => { s with files }
  | (.error e, files) =>
    { s with files }.say [.warn ("Failed to persist the semantic index: " ++ e.message)]

end Shared

/-- Analyzes files one after the other. -/
def analyzeAll {σ : Type} : List SourceFile → Shared σ → List (Except String Outline) × Shared σ
  | [], s => ([], s)
  | file :: rest, s =>
    let (outline, s) := s.analyze file
    let (outlines, s) := analyzeAll rest s
    (outline :: outlines, s)

/-! ### The second pass -/

/-- A file that was analyzed, with the place of its translation. -/
structure Analyzed where
  file : SourceFile
  placement : Layout.Placement
  outline : Except String Outline

section Process

variable {σ : Type} (t : Conversion.Translator σ) (output : Path)

/-- Writes the translation of a file.  One from the cache is only written if the file does not hold
it already. -/
def writeItem (item : Conversion.Item) (content : String) (files : Files) :
    Conversion.Item × Files × Log :=
  let place : Layout.Placement := ⟨item.module, item.goFile⟩
  let (written, files) :=
    if item.cached then Layout.writeIfChanged files output place content
    else
      let (result, files) := Layout.write files output place content
      (result.map fun () => true, files)
  match written with
  | .ok rewritten =>
    ({ item with target := some (Layout.targetPath output place), rewritten }, files, [])
  | .error e => ({ item with failure := some e.message }, files, [.error e.message])

/-- Writes the translation of a file, unless the run is cancelled. -/
def finish (item : Conversion.Item) (s : Shared σ) : Conversion.Item × Shared σ :=
  match item.output with
  | none => (item, s)
  | some content =>
    match t.service.cancelled s.outside with
    | (true, outside) =>
      ({ item with failure := some "cancelled before the output was written", unwritten := true },
        { s with outside })
    | (false, outside) =>
      let (item, files, log) := writeItem output item content s.files
      (item, { s with outside, files }.say log)

/-- Translates a file and writes its translation. -/
def process (a : Analyzed) (s : Shared σ) : Conversion.Item × Shared σ :=
  match a.outline with
  | .error reason =>
    ({ Conversion.Item.start a.file none a.placement.module a.placement.fileName with
        failure := some reason },
      s.say [.warn ("Skipping " ++ a.file.path.text ++ ": " ++ reason)])
  | .ok outline =>
    let item := Conversion.Item.start a.file (some outline) a.placement.module a.placement.fileName
    let (done, job) := t.convert { item, cache := s.cache, files := s.files, outside := s.outside }
    let s := { s with cache := job.cache, files := job.files, outside := job.outside }.say job.log
    if done then finish t output job.item s else (job.item, s)

/-- Translates files and writes their translations one after the other. -/
def processAll : List Analyzed → Shared σ → List Conversion.Item × Shared σ
  | [], s => ([], s)
  | a :: rest, s =>
    let (item, s) := process t output a s
    let (items, s) := processAll rest s
    (item :: items, s)

end Process

/-! ### The end -/

/-- The files whose translations are written. -/
def writtenItems (items : List Conversion.Item) : List Conversion.Item :=
  items.filter fun i => i.target.isSome

/-- Describes the Go module, if anything was written; a failure is a problem of the run. -/
def describe {σ : Type} (r : Request) (items : List Conversion.Item) (s : Shared σ) :
    List String × Shared σ :=
  if (writtenItems items).isEmpty then ([], s)
  else
    match Layout.ensureModuleFile r.tools.layout s.files r.output with
    | (.ok _, files) => ([], { s with files })
    | (.error e, files) => (["Failed to create go.mod: " ++ e.message], { s with files })

/-- Checks the packages of files that were written. -/
def checkModules (v : Assessment.Validator) (output : Path) (items : List Conversion.Item) :
    Table String Assessment.ModuleCheck × Log :=
  let names := (Table.Keys.ofList ((writtenItems items).map (·.module))).keys
  let checks := names.map fun name : String => (name, v.checkModule (output.join name))
  (.ofList (checks.map fun (name, check, _) => (name, check)), checks.flatMap fun c => c.2.2)

/-- A file with what its translation was found to be worth, if it was written. -/
def judge (v : Assessment.Validator) (modules : Table String Assessment.ModuleCheck)
    (item : Conversion.Item) : Conversion.Item :=
  match item.output, item.target with
  | some content, some _ =>
    { item with validation := some (v.assess content item.goFile item.outline
        ((modules.get? item.module).getD {}) none) }
  | _, _ => item

/-- Writes the report, unless it is about a path that is no text. -/
def saveReport (r : Report) (files : Files) : Files × Log :=
  let path := r.output.join Report.fileName
  let saved := files.changeIn r.output FileError.message fun files =>
    if r.isText then (files.write path r.render.toUTF8).mapError FileError.message
    else .error Path.notText
  match saved with
  | (.ok (), files) => (files, [.info ("Wrote " ++ path.text)])
  | (.error reason, files) => (files, [.error ("Failed to write the run report: " ++ reason)])

/-! ### The run -/

/-- The source path that decides about the place of a translation: relative to the input, unless the
input is the file itself. -/
def relativeSource (input path : Path) : Path :=
  match input.relativeTo? path with
  | some relative => if relative.raw = "" then path else relative
  | none => path

/-- What is wrong about the tools of a Go installation. -/
def toolchainWarnings (s : Assessment.Settings) (v : Assessment.Validator) : List String :=
  if s.useToolchain && v.toolchain.isNone then
    ["Go toolchain \x60" ++ s.go ++ "\x60 unavailable; compile, vet and test signals score 0"]
  else []

/-- Analyzes and indexes the files that were found.  Answers with the place and the outline of each.
-/
def prepare {σ : Type} (r : Request) (found : Scan.Result) (s : Shared σ) :
    List Analyzed × Shared σ :=
  let (dropped, index) := s.index.prune (found.files.map (·.path))
  let s := { s with index }.say (if dropped = 0 then [] else
    [.info ("Dropped " ++ toString dropped ++ " index record(s) of files no longer present")])
  let (placements, log) :=
    Layout.place r.tools.layout (found.files.map fun f => relativeSource r.input f.path)
  let (outlines, s) := analyzeAll found.files (s.say log)
  ((found.files.zip (placements.zip outlines)).map fun (file, placement, outline) =>
    ⟨file, placement, outline⟩, s.flush)

/-- Checks the packages and reports, when all files have been worked on. -/
def conclude {σ : Type} (service : Service σ) (v : Assessment.Validator) (r : Request)
    (found : Scan.Result) (items : List Conversion.Item) (s : Shared σ) : Report × Shared σ :=
  let items := items.mergeSort fun a b => a.source.path.le b.source.path
  let (problems, s) := describe r items s
  let (cancelled, outside) := service.cancelled s.outside
  let (modules, log) := if cancelled then (∅, []) else checkModules v r.output items
  let s := { s with outside }.say log
  let (cancelled, outside) := service.cancelled s.outside
  let s := { s with outside }
  let report : Report :=
    { input := r.input
      output := r.output
      force := r.force
      workers := r.workers
      cancelled
      warnings := toolchainWarnings r.tools.checks v ++ problems ++ s.cache.warnings
      skipped := found.skipped
      modules
      cache := s.cache.stats s.files
      index := s.index.stats
      items := items.map (judge v modules) }
  let (files, log) := saveReport report s.files
  (report, { s with files }.say (log ++ report.summary))

/-- Runs with files that were found. -/
def runOn {σ : Type} (service : Service σ) (v : Assessment.Validator) (r : Request)
    (found : Scan.Result) (s : Shared σ) : Report × Shared σ :=
  let (analyzed, s) := prepare r found s
  let t : Conversion.Translator σ := ⟨service, v, s.index, r.conversion⟩
  let (items, s) := processAll t r.output analyzed s
  conclude service v r found items s

/-- Runs a request. -/
def run {σ : Type} (service : Service σ) (v : Assessment.Validator) (r : Request) (files : Files)
    (outside : σ) : Except Scan.ScanError Report × Shared σ :=
  let s := Shared.openFor r files outside
  match Scan.scan r.tools.scan s.files r.input with
  | .error e => (.error e, s)
  | .ok (found, log) =>
    let s := s.say (log ++ [.info ("Converting " ++ toString found.files.length ++
      " file(s) from " ++ r.input.text ++ " with " ++ toString r.workers ++ " worker(s)")])
    let (report, s) := runOn service v r found s
    (.ok report, s)

end Recast.Run
