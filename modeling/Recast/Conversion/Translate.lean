/-
  Conversion/Translate.lean --- making the Go file of one source file.

  A translation in the cache is used again.  Otherwise the service is asked, and asked again after
  an error or an answer that is not Go; when it has been asked often enough a skeleton takes the
  place of the translation.  Only Go that was checked goes into the cache.  `attempts` is structural
  in the number of requests that are left.
-/
import Recast.Cache.Basic
import Recast.Conversion.Item
import Recast.Go.Package
import Recast.Go.Skeleton
import Recast.Inference.Service
import Recast.Meaning.Index
import Recast.PromptText
import Recast.Reply.Tracker

set_option autoImplicit false

namespace Recast.Conversion

/-- How translations are asked for. -/
structure Settings where
  /-- How often a request is repeated. -/
  maxRetries : UInt32 := 2
  earlyStop : Reply.EarlyStop := ⟨true, 400⟩
  /-- How many related places a prompt shows. -/
  topK : Nat := 5
  /-- Hints that every prompt shows. -/
  hints : List String := []
  deriving DecidableEq

/-- The number of requests for a file: one more than the repetitions, counted in a word. -/
def Settings.maxAttempts (s : Settings) : Nat := (s.maxRetries + 1).toNat

/-- What the translation of files needs and does not change. -/
structure Translator (σ : Type) where
  service : Service σ
  validator : Assessment.Validator
  index : Meaning.Index
  settings : Settings

/-- A file being translated, with everything that its translation may change. -/
structure Job (σ : Type) where
  item : Item
  cache : Cache
  files : Files
  /-- The state of the service. -/
  outside : σ
  log : Log := []

namespace Job

variable {σ : Type}

/-- The job with the file in its next stage. -/
def move (job : Job σ) (next : Stage) : Job σ :=
  { job with item := job.item.move next, log := job.log ++ job.item.moveLog next }

/-- The job with something said. -/
def say (job : Job σ) (lines : Log) : Job σ := { job with log := job.log ++ lines }

/-- The job with a failed attempt written down. -/
def fail (job : Job σ) (attempt : Nat) (reason : String) : Job σ :=
  { job with item := { job.item with
    failures := job.item.failures ++ ["attempt " ++ toString attempt ++ ": " ++ reason] } }

/-- The job given up. -/
def cancel (job : Job σ) : Job σ :=
  { job with item := { job.item with failure := some "conversion cancelled" } }.move .cancelled

/-- The path of the file. -/
def path (job : Job σ) : Path := job.item.source.path

@[simp] theorem item_move (job : Job σ) (next : Stage) :
    (job.move next).item = job.item.move next := rfl

end Job

/-- How an attempt ended. -/
inductive Attempt where
  /-- The translation is finished. -/
  | finished
  /-- There is no translation yet. -/
  | failed
  /-- The work is to be given up. -/
  | cancelled
  deriving DecidableEq

namespace Translator

variable {σ : Type} (t : Translator σ)

/-- Whether the work is to be given up. -/
def isCancelled (job : Job σ) : Bool × Job σ :=
  let (answer, outside) := t.service.cancelled job.outside
  (answer, { job with outside })

/-- The prompt for a file, and what its search for related places has to say. -/
def prompt (item : Item) : Prompt × Log :=
  let outline := item.outline.getD {}
  let path := item.source.path
  let query := (t.index.fileMeaning? path).getD (Meaning.ofFile path.stem outline)
  let (found, log) := t.index.related path query t.settings.topK
  (PromptText.build t.settings.topK item.source outline found t.settings.hints item.module, log)

/-- Asks for an answer that comes at once, and takes the code out of it. -/
def requestWhole (prompt : Prompt) (job : Job σ) : Except InferenceError String × Job σ :=
  match t.service.complete prompt job.outside with
  | (.ok text, outside) =>
    (.ok (Reply.ofComplete text).code, ({ job with outside }.move .complete).move .extracted)
  | (.error e, outside) => (.error e, { job with outside })

/-- Takes the code out of an answer that comes piece by piece. -/
def readStream (chunks : List Chunk) (job : Job σ) : Except InferenceError String × Job σ :=
  match Reply.ofChunks t.settings.earlyStop chunks with
  | (taken, result) =>
    let job := { job.move .streaming with outside := t.service.taken taken job.outside }
    match result with
    | .ok extraction => (.ok extraction.code, job.move .extracted)
    | .error e => (.error e, job)

/-- Makes a request, and takes the code out of its answer.  A service that turns out not to stream
is asked once more. -/
def request (prompt : Prompt) (job : Job σ) : Except InferenceError String × Job σ :=
  if t.service.streams then
    match t.service.stream prompt job.outside with
    | (.ok chunks, outside) => t.readStream chunks { job with outside }
    | (.error .streamingUnsupported, outside) => t.requestWhole prompt { job with outside }
    | (.error e, outside) => (.error e, { job with outside })
  else t.requestWhole prompt job

/-- Why a text is not Go. -/
def reason (check : Go.CheckResult) : String :=
  match check.diagnostics.head? with
  | some d => "line " ++ toString d.line ++ ": " ++ d.fault.message
  | none => "invalid Go"

/-- Finishes the translation with code that is valid. -/
def accept (code : String) (attempt : Nat) (job : Job σ) : Job σ :=
  let job := job.move .valid
  let origin : Cache.Origin :=
    ⟨job.item.module, job.item.goFile, t.service.name, attempt, job.cache.now⟩
  let (cache, files, log) :=
    job.cache.putTranslation job.files job.path job.item.source.digest ⟨code, origin⟩
  let job := { job with cache, files }.say
    (log ++ [LogLine.info
      ("Translated " ++ job.path.text ++ " in " ++ toString attempt ++ " attempt(s)")])
  { job with item := { job.item with output := some code } }.move .done

/-- Checks code that came with an answer. -/
def judge (code : String) (attempt : Nat) (job : Job σ) : Attempt × Job σ :=
  let code := Go.retargetString code job.item.module
  let (check, log) := t.validator.checkText code
  let job := job.say log
  if check.valid then (.finished, t.accept code attempt job)
  else
    let reason := reason check
    (.failed, ((job.move .invalid).say [.warn (job.path.text ++ ": attempt " ++ toString attempt ++
      " produced invalid Go: " ++ reason)]).fail attempt reason)

/-- Makes an attempt. -/
def attempt (prompt : Prompt) (n : Nat) (job : Job σ) : Attempt × Job σ :=
  let job := { job with item := { job.item with attempts := n } }.move .requestSent
  match t.request prompt job with
  | (.ok code, job) => t.judge code n job
  | (.error .cancelled, job) => (.cancelled, job)
  | (.error e, job) =>
    (.failed, (job.say [.warn (job.path.text ++ ": attempt " ++ toString n ++ " failed: " ++
      e.message)]).fail n e.message)

/-- Finishes the translation with a skeleton. -/
def fallBack (job : Job σ) : Job σ :=
  let job := (job.move .templateFallback).say [.warn (job.path.text ++ ": giving up after " ++
    toString job.item.attempts ++ " attempt(s); writing a skeleton")]
  let item := job.item
  let skeleton := Go.Skeleton.render item.module item.source.path.fileName (item.outline.getD {})
  { job with item := { item with output := some skeleton, fallback := true } }.move .done

/-- Makes attempts, of which `left` are left and the next one is number `n`.  Answers whether the
file was finished. -/
def attempts (prompt : Prompt) : Nat → Nat → Job σ → Bool × Job σ
  | 0, _, job => (true, fallBack job)
  | left + 1, n, job =>
    match t.isCancelled job with
    | (true, job) => (false, job.cancel)
    | (false, job) =>
      match t.attempt prompt n job with
      | (.finished, job) => (true, job)
      | (.cancelled, job) => (false, job.cancel)
      | (.failed, job) => attempts prompt left (n + 1) (if left = 0 then job else job.move .retry)

/-- Finishes the translation with one from the cache, whose package may have changed since. -/
def reuse (hit : Cache.Translation) (job : Job σ) : Job σ :=
  let output := Go.retargetString hit.output job.item.module
  ({ job with item := { job.item with output := some output, cached := true } }.move .cacheHit).move
    .done

/-- Makes the translation of a file with the service. -/
def translate (job : Job σ) : Bool × Job σ :=
  let job := (job.move .cacheMiss).move .contextBuild
  let (prompt, log) := t.prompt job.item
  t.attempts prompt t.settings.maxAttempts 1 (job.say log)

/-- Makes the Go file of a source file.  Answers whether it was finished, which it is unless the
work was given up. -/
def convert (job : Job σ) : Bool × Job σ :=
  match t.isCancelled job with
  | (true, job) => (false, job.cancel)
  | (false, job) =>
    let job := job.move .cacheCheck
    match job.cache.translation? job.files job.path job.item.source.digest with
    | (some hit, cache, log) => (true, reuse hit ({ job with cache }.say log))
    | (none, cache, log) => t.translate ({ job with cache }.say log)

end Translator

end Recast.Conversion
