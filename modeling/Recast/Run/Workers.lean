/-
  Run/Workers.lean --- a run whose files are worked on at the same time.

  The work on a file is a task on what the files share: the cache, the index, the tree of files and
  the service.  Whatever is asked or changed there is a step of its own, so other work may come
  between any two of them.  `Completes` are the runs with the steps in any order; the run that works
  on one file after the other is one of them.
-/
import Recast.Run.Basic
import Recast.Task

set_option autoImplicit false

namespace Recast

namespace Cache

/-- The cache and the files with an entry stored for a file. -/
def keep (c : Cache) (files : Files) (path : Path) (entry : Entry) : Cache × Files × Log :=
  match c.store with
  | .error _ => (c, files, [])
  | .ok store =>
    match store.set files (entryKey path) { entry with time := c.now }.encode with
    | .ok (store, files) => ({ c with store := .ok store }, files, [])
    | .error e =>
      let (c, log) := c.reportFailure e
      (c, files, log)

end Cache

namespace Run

open Conversion (Item Job Translator)

variable {σ : Type}

/-! ## Steps of a conversion -/

/-- A job with what it shares as it is now. -/
def Shared.lend (s : Shared σ) (job : Job σ) : Job σ :=
  { job with cache := s.cache, files := s.files, outside := s.outside }

/-- What is shared, as a job leaves it. -/
def Shared.back (s : Shared σ) (job : Job σ) : Shared σ :=
  { s with cache := job.cache, files := job.files, outside := job.outside }

/-- A step of a job. -/
def onJob {β : Type} (f : Job σ → β × Job σ) (job : Job σ) : Task (Shared σ) (β × Job σ) :=
  .act fun s => (f (s.lend job), s.back (f (s.lend job)).2)

namespace Work

section Conversion

variable (t : Translator σ)

/-- Asks for an answer that comes at once. -/
def complete (prompt : Prompt) (job : Job σ) : Except InferenceError String × Job σ :=
  let (answer, outside) := t.service.complete prompt job.outside
  (answer, { job with outside })

/-- Asks for an answer that comes piece by piece. -/
def stream (prompt : Prompt) (job : Job σ) : Except InferenceError (List Chunk) × Job σ :=
  let (answer, outside) := t.service.stream prompt job.outside
  (answer, { job with outside })

/-- Tells how many pieces of the answer were read. -/
def taken (n : Nat) (job : Job σ) : Unit × Job σ :=
  ((), { job with outside := t.service.taken n job.outside })

/-- Looks for a translation in the cache. -/
def lookUp (job : Job σ) : Option Cache.Translation × Job σ :=
  let (hit, cache, log) := job.cache.translation? job.files job.path job.item.source.digest
  (hit, { job with cache }.say log)

/-- Looks for the entry of a file, and at the time. -/
def loadEntry (job : Job σ) : (Option Cache.Entry × Timestamp) × Job σ :=
  let (entry, cache, log) := job.cache.load job.files job.path
  ((entry, job.cache.now), { job with cache }.say log)

/-- Stores the entry of a file. -/
def keepEntry (entry : Cache.Entry) (job : Job σ) : Unit × Job σ :=
  let (cache, files, log) := job.cache.keep job.files job.path entry
  ((), { job with cache, files }.say log)

/-- Asks for an answer that comes at once, and takes the code out of it. -/
def requestWhole (prompt : Prompt) (job : Job σ) :
    Task (Shared σ) (Except InferenceError String × Job σ) := do
  match ← onJob (complete t prompt) job with
  | (.ok text, job) =>
    return (.ok (Reply.ofComplete text).code, (job.move .complete).move .extracted)
  | (.error e, job) => return (.error e, job)

/-- Takes the code out of an answer that comes piece by piece. -/
def readStream (chunks : List Chunk) (job : Job σ) :
    Task (Shared σ) (Except InferenceError String × Job σ) := do
  let (read, result) := Reply.ofChunks t.settings.earlyStop chunks
  let ((), job) ← onJob (taken t read) (job.move .streaming)
  match result with
  | .ok extraction => return (.ok extraction.code, job.move .extracted)
  | .error e => return (.error e, job)

/-- Makes a request, and takes the code out of its answer. -/
def request (prompt : Prompt) (job : Job σ) :
    Task (Shared σ) (Except InferenceError String × Job σ) :=
  if t.service.streams then do
    match ← onJob (stream t prompt) job with
    | (.ok chunks, job) => readStream t chunks job
    | (.error .streamingUnsupported, job) => requestWhole t prompt job
    | (.error e, job) => return (.error e, job)
  else requestWhole t prompt job

/-- The entry of a file with a translation in the place of the one it had. -/
def entryWith (code : String) (attempt : Nat) (item : Item) (entry : Option Cache.Entry)
    (now : Timestamp) : Cache.Entry :=
  let digest := item.source.digest
  let origin : Cache.Origin := ⟨item.module, item.goFile, t.service.name, attempt, now⟩
  { (Cache.matching digest entry).getD { digest } with translation := some ⟨code, origin⟩ }

/-- Ends a job with code that was stored. -/
def deliver (code : String) (attempt : Nat) (job : Job σ) : Job σ :=
  let job := job.say [.info
    ("Translated " ++ job.path.text ++ " in " ++ toString attempt ++ " attempt(s)")]
  { job with item := { job.item with output := some code } }.move .done

/-- Finishes the translation with code that is valid. -/
def accept (code : String) (attempt : Nat) (job : Job σ) : Task (Shared σ) (Job σ) := do
  let ((entry, now), job) ← onJob loadEntry (job.move .valid)
  let ((), job) ← onJob (keepEntry (entryWith t code attempt job.item entry now)) job
  return deliver code attempt job

/-- Checks code that came with an answer. -/
def judge (code : String) (attempt : Nat) (job : Job σ) :
    Task (Shared σ) (Conversion.Attempt × Job σ) := do
  let code := Go.retargetString code job.item.module
  let (check, log) := t.validator.checkText code
  let job := job.say log
  if check.valid then return (.finished, ← accept t code attempt job)
  else
    let reason := Translator.reason check
    return (.failed, ((job.move .invalid).say [.warn (job.path.text ++ ": attempt " ++
      toString attempt ++ " produced invalid Go: " ++ reason)]).fail attempt reason)

/-- Makes an attempt. -/
def attempt (prompt : Prompt) (n : Nat) (job : Job σ) :
    Task (Shared σ) (Conversion.Attempt × Job σ) := do
  let job := { job with item := { job.item with attempts := n } }.move .requestSent
  match ← request t prompt job with
  | (.ok code, job) => judge t code n job
  | (.error .cancelled, job) => return (.cancelled, job)
  | (.error e, job) =>
    return (.failed, (job.say [.warn (job.path.text ++ ": attempt " ++ toString n ++ " failed: " ++
      e.message)]).fail n e.message)

/-- Makes attempts, of which `left` are left and the next one is number `n`. -/
def attempts (prompt : Prompt) : Nat → Nat → Job σ → Task (Shared σ) (Bool × Job σ)
  | 0, _, job => return (true, Translator.fallBack job)
  | left + 1, n, job => do
    match ← onJob t.isCancelled job with
    | (true, job) => return (false, job.cancel)
    | (false, job) =>
      match ← attempt t prompt n job with
      | (.finished, job) => return (true, job)
      | (.cancelled, job) => return (false, job.cancel)
      | (.failed, job) => attempts prompt left (n + 1) (if left = 0 then job else job.move .retry)

/-- Makes the translation of a file with the service. -/
def translate (job : Job σ) : Task (Shared σ) (Bool × Job σ) :=
  let job := (job.move .cacheMiss).move .contextBuild
  let (prompt, log) := t.prompt job.item
  attempts t prompt t.settings.maxAttempts 1 (job.say log)

/-- Makes the Go file of a source file. -/
def convert (job : Job σ) : Task (Shared σ) (Bool × Job σ) := do
  match ← onJob t.isCancelled job with
  | (true, job) => return (false, job.cancel)
  | (false, job) =>
    match ← onJob lookUp (job.move .cacheCheck) with
    | (some hit, job) => return (true, Translator.reuse hit job)
    | (none, job) => translate t job

end Conversion

/-! ## The first pass -/

/-- Drops what the index knows about a file. -/
def forget (path : Path) : Task (Shared σ) Unit := .act fun s => ((), s.forget path)

/-- Puts records of a file into the index, up to the first that fails. -/
def putAll (path : Path) : List Meaning.Index.Draft → Task (Shared σ) Unit
  | [] => return ()
  | d :: rest => do
    let fault ← .act fun s : Shared σ =>
      match s.index.put d.subject path d.name d.meaning d.metadata with
      | .ok index => (none, { s with index })
      | .error e => (some e, s)
    match fault with
    | none => putAll path rest
    | some e =>
      .act fun s => ((), s.say [.warn ("Failed to index " ++ path.text ++ ": " ++ e.message)])

/-- Puts the records of a file in the place of those that the index has. -/
def learn (file : SourceFile) (outline : Outline) : Task (Shared σ) Unit := do
  if ← .act fun s : Shared σ => (s.index.enabled, s) then
    forget file.path
    putAll file.path (Meaning.Index.drafts file.path.stem outline)

/-- Loads the entry of a file. -/
def load (path : Path) (s : Shared σ) : Option Cache.Entry × Shared σ :=
  let (entry, cache, log) := s.cache.load s.files path
  (entry, { s with cache }.say log)

/-- Stores the entry of a file with an outline in the place of the one it had. -/
def keepOutline (file : SourceFile) (outline : Outline) (entry : Option Cache.Entry)
    (s : Shared σ) : Unit × Shared σ :=
  let entry := (Cache.matching file.digest entry).getD { digest := file.digest }
  let (cache, files, log) :=
    s.cache.keep s.files file.path { entry with outline := some outline }
  ((), { s with cache, files }.say log)

/-- Analyzes a file whose outline the cache does not have. -/
def analyzeAnew (file : SourceFile) : Task (Shared σ) (Except String Outline) :=
  match Outline.ofBytes file.content with
  | .error e => do
    forget file.path
    return .error (Shared.syntaxFailure e.message)
  | .ok outline => do
    let entry ← .act (load file.path)
    let () ← .act (keepOutline file outline entry)
    learn file outline
    return .ok outline

/-- Analyzes a file. -/
def analyze (file : SourceFile) : Task (Shared σ) (Except String Outline) :=
  match file.syntaxError with
  | some reason => do
    forget file.path
    return .error (Shared.syntaxFailure reason)
  | none => do
    let known ← .act fun s : Shared σ =>
      let (outline, cache, log) := s.cache.outline? s.files file.path file.digest
      (outline, { s with cache }.say log)
    match known with
    | some outline =>
      if ← .act fun s : Shared σ => ((s.index.fileMeaning? file.path).isNone, s) then
        learn file outline
      return .ok outline
    | none => analyzeAnew file

/-! ## The second pass -/

section Second

variable (t : Translator σ) (output : Path)
  /- The writes that fail, whatever the tree of files is like. -/
  (refuses : Layout.Placement → Option Layout.WriteError)

/-- Writes the translation of a file. -/
def put (item : Item) (content : String) : Task (Shared σ) Item :=
  let place : Layout.Placement := ⟨item.module, item.goFile⟩
  .act fun s : Shared σ =>
    let (written, files) : Except Layout.WriteError Unit × Files :=
      match refuses place with
      | some e => (.error e, s.files)
      | none => Layout.write s.files output place content
    match written with
    | .ok () =>
      ({ item with target := some (Layout.targetPath output place), rewritten := true },
        { s with files })
    | .error e =>
      ({ item with failure := some e.message }, { s with files }.say [.error e.message])

/-- Writes the translation of a file.  One from the cache is only written if the file does not hold
it already. -/
def write (item : Item) (content : String) : Task (Shared σ) Item := do
  let target := Layout.targetPath output ⟨item.module, item.goFile⟩
  if item.cached then
    if ← .act fun s : Shared σ => (Layout.holds s.files target content, s) then
      return { item with target := some target, rewritten := false }
    else put output refuses item content
  else put output refuses item content

/-- Whether the run is cancelled. -/
def isCancelled (s : Shared σ) : Bool × Shared σ :=
  ((t.service.cancelled s.outside).1, { s with outside := (t.service.cancelled s.outside).2 })

/-- Writes the translation of a file, unless the run is cancelled. -/
def finish (item : Item) : Task (Shared σ) Item :=
  match item.output with
  | none => return item
  | some content => do
    if ← .act (isCancelled t) then
      return { item with
        failure := some "cancelled before the output was written", unwritten := true }
    else write output refuses item content

/-- Translates a file and writes its translation. -/
def process (a : Analyzed) : Task (Shared σ) Item :=
  match a.outline with
  | .error reason =>
    .act fun s : Shared σ =>
      ({ Item.start a.file none a.placement.module a.placement.fileName with
          failure := some reason },
        s.say [.warn ("Skipping " ++ a.file.path.text ++ ": " ++ reason)])
  | .ok outline => do
    let item := Item.start a.file (some outline) a.placement.module a.placement.fileName
    let job ← .act fun s : Shared σ =>
      ({ item, cache := s.cache, files := s.files, outside := s.outside : Job σ }, s)
    let (done, job) ← convert t job
    let () ← .act fun s : Shared σ => ((), s.say job.log)
    if done then finish t output refuses job.item else return job.item

end Second

end Work

/-! ## Runs -/

/-- The places of the files that were found. -/
def placements (r : Request) (found : Scan.Result) : List Layout.Placement × Log :=
  Layout.place r.tools.layout (found.files.map fun f => relativeSource r.input f.path)

/-- The files that were found, with their places and what the first pass found out about them. -/
def assign (r : Request) (found : Scan.Result) (outlines : List (Except String Outline)) :
    List Analyzed :=
  (found.files.zip ((placements r found).1.zip outlines)).map fun (file, placement, outline) =>
    ⟨file, placement, outline⟩

/-- What is said when the files are known. -/
def announcement (r : Request) (found : Scan.Result) : LogLine :=
  .info ("Converting " ++ toString found.files.length ++ " file(s) from " ++ r.input.text ++
    " with " ++ toString r.workers ++ " worker(s)")

/-- What the files share in front of the first pass. -/
def begin (r : Request) (found : Scan.Result) (s : Shared σ) : Shared σ :=
  let (dropped, index) := s.index.prune (found.files.map (·.path))
  ({ s with index }.say (if dropped = 0 then [] else
    [.info ("Dropped " ++ toString dropped ++ " index record(s) of files no longer present")])).say
    (placements r found).2

/-- The reports that a request can lead to, and what is left in the end.  Files are analyzed at the
same time, and after that they are translated at the same time and get into the report in some
order. -/
inductive Completes (service : Service σ) (v : Assessment.Validator) (r : Request)
    (refuses : Layout.Placement → Option Layout.WriteError) (files : Files) (outside : σ) :
    Report → Shared σ → Prop
  | intro {found : Scan.Result} {log : Log} {outlines : List (Except String Outline)}
      {analyzed worked : Shared σ} {items pushed : List Item}
      (scanned : Scan.scan r.tools.scan (Shared.openFor r files outside).files r.input =
        .ok (found, log))
      (first : Task.Interleave (found.files.map Work.analyze)
        (begin r found ((Shared.openFor r files outside).say (log ++ [announcement r found])))
        outlines analyzed)
      (second : Task.Interleave
        ((assign r found outlines).map
          (Work.process ⟨service, v, analyzed.flush.index, r.conversion⟩ r.output refuses))
        analyzed.flush items worked)
      (order : pushed.Perm items) :
      Completes service v r refuses files outside (conclude service v r found pushed worked).1
        (conclude service v r found pushed worked).2

end Run

end Recast
