/-
  Proofs/Run/Workers.lean --- working on one file after the other is a way to work on all of them.

  Done with nothing in between, the work on a file is what the run does with it (`run_analyze`,
  `run_process`), so the run that is done one file after the other completes like one whose files
  are worked on at the same time (`completes_run`).
-/
import Recast.Proofs.Cache.Store
import Recast.Run.Workers

set_option autoImplicit false

namespace Recast

/-- Changing an entry is loading it and storing it. -/
theorem Cache.update_eq (c : Cache) (files : Files) (path : Path) (digest : Digest)
    (change : Entry → Entry) :
    c.update files path digest change =
      let entry := change ((matching digest (c.load files path).1).getD { digest })
      let kept := (c.load files path).2.1.keep files path entry
      (kept.1, kept.2.1, (c.load files path).2.2 ++ kept.2.2) := by
  unfold update
  cases hstore : c.store with
  | error reason => simp [load, keep, hstore]
  | ok store =>
    have hload : (c.load files path).2.1.store = .ok store := by
      rw [(consulted_load c files path).store, hstore]
    dsimp only
    generalize c.load files path = loaded at hload
    obtain ⟨entry, c, log⟩ := loaded
    unfold keep
    rw [hload]
    dsimp only
    split <;> simp [*]

namespace Run

open Conversion (Item Job Translator)

variable {σ : Type}

/-- A job whose steps, with nothing in between, are a function of the job. -/
def Does {β : Type} (task : Job σ → Task (Shared σ) (β × Job σ)) (f : Job σ → β × Job σ) : Prop :=
  ∀ (s : Shared σ) (job : Job σ), (task job).run (s.back job) = (f job, s.back (f job).2)

@[simp] theorem run_onJob {β : Type} (f : Job σ → β × Job σ) (s : Shared σ) (job : Job σ) :
    (onJob f job).run (s.back job) = (f job, s.back (f job).2) := rfl

namespace Work

section Conversion

variable (t : Translator σ)

theorem does_requestWhole (prompt : Prompt) :
    Does (requestWhole t prompt) (t.requestWhole prompt) := by
  intro s job
  unfold requestWhole Translator.requestWhole
  rw [Task.run_bind, run_onJob, complete]
  obtain ⟨answer, outside⟩ := t.service.complete prompt job.outside
  cases answer with
  | ok text => rfl
  | error e => rfl

theorem does_readStream (chunks : List Chunk) :
    Does (readStream t chunks) (t.readStream chunks) := by
  intro s job
  unfold readStream Translator.readStream
  obtain ⟨read, result⟩ := Reply.ofChunks t.settings.earlyStop chunks
  cases result with
  | ok extraction => rfl
  | error e => rfl

theorem does_request (prompt : Prompt) : Does (request t prompt) (t.request prompt) := by
  intro s job
  unfold request Translator.request
  split
  · rw [Task.run_bind, run_onJob, stream]
    obtain ⟨answer, outside⟩ := t.service.stream prompt job.outside
    cases answer with
    | ok chunks => exact does_readStream t chunks s { job with outside }
    | error e =>
      cases e with
      | streamingUnsupported => exact does_requestWhole t prompt s { job with outside }
      | timeout | cancelled | service | malformed => rfl
  · exact does_requestWhole t prompt s job

theorem accept_eq (code : String) (n : Nat) (job : Job σ) :
    t.accept code n job =
      let loaded := loadEntry (job.move .valid)
      let entry := entryWith t code n loaded.2.item loaded.1.1 loaded.1.2
      deliver code n (keepEntry entry loaded.2).2 := by
  unfold Translator.accept Cache.putTranslation loadEntry
  dsimp only
  generalize job.move .valid = job
  rw [Cache.update_eq]
  generalize job.cache.load job.files job.path = loaded
  obtain ⟨entry, cache, log⟩ := loaded
  unfold keepEntry deliver Job.say Job.path entryWith
  dsimp only
  generalize cache.keep _ _ _ = kept
  obtain ⟨cache, files, more⟩ := kept
  simp only [List.append_assoc]

theorem run_accept (code : String) (n : Nat) (s : Shared σ) (job : Job σ) :
    (accept t code n job).run (s.back job) = (t.accept code n job, s.back (t.accept code n job)) := by
  rw [accept_eq]
  rfl

theorem does_judge (code : String) (n : Nat) : Does (judge t code n) (t.judge code n) := by
  intro s job
  unfold judge Translator.judge
  dsimp only
  generalize Go.retargetString code job.item.module = code
  have haccept := run_accept t code n s (job.say (t.validator.checkText code).2)
  change (accept t code n _).run (s.back job) = _ at haccept
  split
  · rw [Task.run_bind, haccept]
    rfl
  · rfl

theorem does_attempt (prompt : Prompt) (n : Nat) : Does (attempt t prompt n) (t.attempt prompt n) := by
  intro s job
  unfold attempt Translator.attempt
  have hrequest := does_request t prompt s
    ({ job with item := { job.item with attempts := n } }.move .requestSent)
  change (request t prompt _).run (s.back job) = _ at hrequest
  dsimp only at hrequest ⊢
  rw [Task.run_bind, hrequest]
  generalize t.request prompt _ = result
  obtain ⟨answer, job⟩ := result
  cases answer with
  | ok code => exact does_judge t code n s job
  | error e => cases e <;> rfl

theorem does_attempts (prompt : Prompt) (left n : Nat) :
    Does (attempts t prompt left n) (t.attempts prompt left n) := by
  induction left generalizing n with
  | zero =>
    intro s job
    rfl
  | succ left ih =>
    intro s job
    unfold attempts Translator.attempts
    rw [Task.run_bind, run_onJob]
    generalize t.isCancelled job = asked
    obtain ⟨cancelled, job⟩ := asked
    cases cancelled with
    | true => rfl
    | false =>
      dsimp only
      rw [Task.run_bind, does_attempt t prompt n s job]
      generalize t.attempt prompt n job = result
      obtain ⟨ending, job⟩ := result
      cases ending with
      | finished => rfl
      | cancelled => rfl
      | failed =>
        dsimp only
        split
        · exact ih (n + 1) s job
        · exact ih (n + 1) s (job.move .retry)

theorem does_convert : Does (convert t) t.convert := by
  intro s job
  unfold convert Translator.convert
  rw [Task.run_bind, run_onJob]
  generalize t.isCancelled job = asked
  obtain ⟨cancelled, job⟩ := asked
  cases cancelled with
  | true => rfl
  | false =>
    dsimp only
    have hlook := run_onJob lookUp s (job.move .cacheCheck)
    change Task.run _ (s.back job) = _ at hlook
    rw [Task.run_bind, hlook]
    unfold lookUp
    dsimp only
    generalize Cache.translation? _ _ _ _ = found
    obtain ⟨hit, cache, log⟩ := found
    cases hit with
    | some hit => rfl
    | none => exact does_attempts t _ _ 1 s _

end Conversion

/-! ## The first pass -/

theorem run_putAll (path : Path) (ds : List Meaning.Index.Draft) (s : Shared σ) :
    (putAll path ds).run s =
      ((), match s.index.putAll path ds with
        | (.ok _, index) => { s with index }
        | (.error e, index) => { s with index }.say
            [.warn ("Failed to index " ++ path.text ++ ": " ++ e.message)]) := by
  induction ds generalizing s with
  | nil => rfl
  | cons d ds ih =>
    unfold putAll Meaning.Index.putAll
    rw [Task.run_bind, Task.run_act]
    cases s.index.put d.subject path d.name d.meaning d.metadata with
    | ok index => exact ih { s with index }
    | error e => rfl

theorem run_learn (file : SourceFile) (o : Outline) (s : Shared σ) :
    (learn file o).run s = ((), s.learn file o) := by
  unfold learn Shared.learn Meaning.Index.addOutline
  rw [Task.run_bind, Task.run_act]
  dsimp only
  cases s.index.enabled with
  | false => rfl
  | true =>
    have hput := run_putAll file.path (Meaning.Index.drafts file.path.stem o) (s.forget file.path)
    refine (Task.run_bind _ _ _).trans (hput.trans ?_)
    unfold Shared.forget
    dsimp only
    rw [Bool.not_true, if_neg Bool.false_ne_true]
    generalize Meaning.Index.putAll _ _ _ = result
    obtain ⟨fault, index⟩ := result
    cases fault <;> rfl

/-- Putting an outline is loading the entry and storing it. -/
theorem putOutline_eq (file : SourceFile) (o : Outline) (s : Shared σ) :
    { s with
        cache := (s.cache.putOutline s.files file.path file.digest o).1
        files := (s.cache.putOutline s.files file.path file.digest o).2.1 }.say
      (s.cache.putOutline s.files file.path file.digest o).2.2 =
        (keepOutline file o (load file.path s).1 (load file.path s).2).2 := by
  unfold Cache.putOutline
  rw [Cache.update_eq]
  unfold load keepOutline Shared.say
  simp only [List.append_assoc]

theorem run_analyzeAnew (file : SourceFile) (s : Shared σ) :
    (analyzeAnew file).run s = s.analyzeAnew file := by
  unfold analyzeAnew Shared.analyzeAnew
  cases Outline.ofBytes file.content with
  | error e => rfl
  | ok outline =>
    dsimp only
    rw [putOutline_eq, Task.run_bind, Task.run_act, Task.run_bind, Task.run_act, Task.run_bind,
      run_learn]
    rfl

theorem run_analyze (file : SourceFile) (s : Shared σ) : (analyze file).run s = s.analyze file := by
  unfold analyze Shared.analyze
  cases file.syntaxError with
  | some reason => rfl
  | none =>
    dsimp only
    rw [Task.run_bind, Task.run_act]
    generalize s.cache.outline? s.files file.path file.digest = known
    obtain ⟨outline, cache, log⟩ := known
    cases outline with
    | some outline =>
      dsimp only
      rw [Task.run_bind, Task.run_act]
      dsimp only
      split
      · rw [Task.run_bind, run_learn]
        rfl
      · rfl
    | none => exact run_analyzeAnew file _

/-! ## The second pass -/

section Second

variable (t : Translator σ) (output : Path)

theorem run_put (item : Item) (content : String) (s : Shared σ) :
    (put output (fun _ => none) item content).run s =
      match Layout.write s.files output ⟨item.module, item.goFile⟩ content with
      | (.ok (), files) =>
        ({ item with
          target := some (Layout.targetPath output ⟨item.module, item.goFile⟩), rewritten := true },
          { s with files })
      | (.error e, files) =>
        ({ item with failure := some e.message }, { s with files }.say [.error e.message]) := by
  unfold put
  dsimp only
  refine (Task.run_act _ s).trans ?_
  obtain ⟨written, files⟩ := Layout.write s.files output ⟨item.module, item.goFile⟩ content
  cases written <;> rfl

theorem run_write (item : Item) (content : String) (s : Shared σ) :
    (write output (fun _ => none) item content).run s =
      ((writeItem output item content s.files).1,
        { s with files := (writeItem output item content s.files).2.1 }.say
          (writeItem output item content s.files).2.2) := by
  have hsay (s : Shared σ) : s.say [] = s := by
    rw [Shared.say, List.append_nil]
  unfold write writeItem Layout.writeIfChanged
  dsimp only
  split
  · rw [Task.run_bind, Task.run_act]
    dsimp only
    split
    · rw [hsay]
      rfl
    · rw [run_put]
      obtain ⟨written, files⟩ := Layout.write s.files output ⟨item.module, item.goFile⟩ content
      cases written with
      | ok _ => exact congrArg (Prod.mk _) (hsay { s with files }).symm
      | error e => rfl
  · rw [run_put]
    obtain ⟨written, files⟩ := Layout.write s.files output ⟨item.module, item.goFile⟩ content
    cases written with
    | ok _ => exact congrArg (Prod.mk _) (hsay { s with files }).symm
    | error e => rfl

theorem run_finish (item : Item) (s : Shared σ) :
    (finish t output (fun _ => none) item).run s = Run.finish t output item s := by
  unfold finish Run.finish
  cases item.output with
  | none => rfl
  | some content =>
    dsimp only
    rw [Task.run_bind, Task.run_act, isCancelled]
    generalize t.service.cancelled s.outside = asked
    obtain ⟨cancelled, outside⟩ := asked
    cases cancelled with
    | true => rfl
    | false => exact run_write output item content _

theorem run_process (a : Analyzed) (s : Shared σ) :
    (process t output (fun _ => none) a).run s = Run.process t output a s := by
  unfold process Run.process
  cases a.outline with
  | error reason => rfl
  | ok outline =>
    dsimp only
    rw [Task.run_bind, Task.run_act]
    have hconvert := does_convert t s
      { item := .start a.file (some outline) a.placement.module a.placement.fileName
        cache := s.cache, files := s.files, outside := s.outside }
    change Task.run _ s = _ at hconvert
    dsimp only
    rw [Task.run_bind, hconvert]
    generalize t.convert _ = result
    obtain ⟨done, job⟩ := result
    dsimp only
    rw [Task.run_bind, Task.run_act]
    split
    · exact run_finish t output job.item _
    · rfl

end Second

end Work

/-! ## Whole runs -/

theorem runAll_analyze (files : List SourceFile) (s : Shared σ) :
    Task.runAll (files.map Work.analyze) s = analyzeAll files s := by
  induction files generalizing s with
  | nil => rfl
  | cons file files ih =>
    rw [List.map_cons, Task.runAll, analyzeAll, Work.run_analyze]
    dsimp only
    rw [ih]

theorem runAll_process (t : Translator σ) (output : Path) (as : List Analyzed) (s : Shared σ) :
    Task.runAll (as.map (Work.process t output fun _ => none)) s = processAll t output as s := by
  induction as generalizing s with
  | nil => rfl
  | cons a as ih =>
    rw [List.map_cons, Task.runAll, processAll, Work.run_process]
    dsimp only
    rw [ih]

theorem prepare_eq (r : Request) (found : Scan.Result) (s : Shared σ) :
    prepare r found s = (assign r found (analyzeAll found.files (begin r found s)).1,
      (analyzeAll found.files (begin r found s)).2.flush) := rfl

theorem completes_runOn (service : Service σ) (v : Assessment.Validator) (r : Request)
    {files : Files} {outside : σ} {found : Scan.Result} {log : Log}
    (hscan : Scan.scan r.tools.scan (Shared.openFor r files outside).files r.input =
      .ok (found, log)) :
    let result := runOn service v r found
      ((Shared.openFor r files outside).say (log ++ [announcement r found]))
    Completes service v r (fun _ => none) files outside result.1 result.2 := by
  have hfirst := Task.interleave_runAll (found.files.map Work.analyze)
    (begin r found ((Shared.openFor r files outside).say (log ++ [announcement r found])))
  rw [runAll_analyze] at hfirst
  generalize hanalyzed : analyzeAll found.files
    (begin r found ((Shared.openFor r files outside).say (log ++ [announcement r found]))) =
      analyzed at hfirst
  have hsecond := Task.interleave_runAll
    ((assign r found analyzed.1).map
      (Work.process ⟨service, v, analyzed.2.flush.index, r.conversion⟩ r.output fun _ => none))
    analyzed.2.flush
  rw [runAll_process] at hsecond
  rw [runOn, prepare_eq, hanalyzed]
  exact .intro hscan hfirst hsecond (.refl _)

/-- Files that are found can be worked on, whatever writes fail. -/
theorem exists_completes (service : Service σ) (v : Assessment.Validator) (r : Request)
    (refuses : Layout.Placement → Option Layout.WriteError) {files : Files} {outside : σ}
    {found : Scan.Result} {log : Log}
    (hscan : Scan.scan r.tools.scan (Shared.openFor r files outside).files r.input =
      .ok (found, log)) : ∃ report last, Completes service v r refuses files outside report last :=
  ⟨_, _, .intro hscan (Task.interleave_runAll _ _) (Task.interleave_runAll _ _) (.refl _)⟩

/-- The run that works on one file after the other is a way to work on all of them. -/
theorem completes_run (service : Service σ) (v : Assessment.Validator) (r : Request) (files : Files)
    (outside : σ) {report : Report} {last : Shared σ}
    (h : run service v r files outside = (.ok report, last)) :
    Completes service v r (fun _ => none) files outside report last := by
  unfold run at h
  dsimp only at h
  split at h
  · cases h
  · next found log hscan =>
    cases h
    exact completes_runOn service v r hscan

end Run

end Recast
