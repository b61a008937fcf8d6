/-
  Proofs/Conversion/Stages.lean --- a conversion passes through its stages as it should.

  Every change of stage is one that the table of stages allows, whatever the service, the cache and
  the tools do, so that a conversion never warns about one (`Orderly`).  It begins with `Pending`
  and ends with `Done` or `Cancelled`, which nothing else in its trace is (`convert_orderly`).  A
  file whose number of requests does not fit a word is the exception.
-/
import Mathlib.Data.List.Chain
import Recast.Conversion.Translate
import Recast.Proofs.Conversion.Validity

set_option autoImplicit false

namespace Recast

/-! ## What is said -/

/-- What a cache may say about a file. -/
inductive Cache.Remark (path : Path) : LogLine → Prop
  | failed (e : StoreError) : Remark path
      (.warn ("structural cache store failed (" ++ e.message ++ "); treating files as changed"))
  | corrupt : Remark path (.warn (StoreError.corrupt (entryKey path) "not an entry").message)

namespace Cache

theorem remark_reportFailure {path : Path} (c : Cache) (e : StoreError) :
    ∀ line ∈ (c.reportFailure e).2, Remark path line := by
  intro line hline
  unfold reportFailure at hline
  split at hline
  · cases hline
  · rw [List.mem_singleton.1 hline]
    exact .failed e

theorem remark_load (c : Cache) (files : Files) (path : Path) :
    ∀ line ∈ (c.load files path).2.2, Remark path line := by
  intro line hline
  unfold load at hline
  split at hline
  · cases hline
  · split at hline
    · exact remark_reportFailure c _ line hline
    · cases hline
    · split at hline
      · cases hline
      · rw [List.mem_singleton.1 hline]
        exact .corrupt

theorem remark_translation? (c : Cache) (files : Files) (path : Path) (digest : Digest) :
    ∀ line ∈ (c.translation? files path digest).2.2, Remark path line := by
  intro line hline
  unfold translation? at hline
  split at hline
  · cases hline
  · exact remark_load c files path line hline

theorem remark_putTranslation (c : Cache) (files : Files) (path : Path) (digest : Digest)
    (translation : Translation) :
    ∀ line ∈ (c.putTranslation files path digest translation).2.2, Remark path line := by
  intro line hline
  unfold putTranslation update at hline
  split at hline
  · cases hline
  · have hload := remark_load c files path
    dsimp only at hline
    split at hline
    · exact hload line hline
    · rcases List.mem_append.1 hline with hline | hline
      · exact hload line hline
      · exact remark_reportFailure _ _ line hline

end Cache

namespace Conversion

/-- What is said about a change of stage that is not allowed. -/
def unexpected (path : Path) (s next : Stage) : LogLine :=
  .warn (path.text ++ ": unexpected transition " ++ s.word ++ " -> " ++ next.word)

/-- What may be said about a file while every change of its stage is allowed. -/
inductive Remark (path : Path) : LogLine → Prop
  | moved (s : Stage) : Remark path (.info (path.text ++ ": " ++ s.word))
  | translated (n : Nat) : Remark path
      (.info ("Translated " ++ path.text ++ " in " ++ toString n ++ " attempt(s)"))
  | failed (n : Nat) (e : InferenceError) : Remark path
      (.warn (path.text ++ ": attempt " ++ toString n ++ " failed: " ++ e.message))
  | invalid (n : Nat) (reason : String) : Remark path
      (.warn (path.text ++ ": attempt " ++ toString n ++ " produced invalid Go: " ++ reason))
  | gaveUp (n : Nat) : Remark path
      (.warn (path.text ++ ": giving up after " ++ toString n ++ " attempt(s); writing a skeleton"))
  | search (e : Meaning.IndexError) : Remark path
      (.warn ("Semantic search for " ++ path.text ++ " failed: " ++ e.message))
  | format (e : Go.ToolError) : Remark path (.warn ("gofmt check failed: " ++ e.message))
  | cache {line : LogLine} (h : Cache.Remark path line) : Remark path line

/-- None of this reads like a warning about a change of stage. -/
theorem not_remark_unexpected {path : Path} (habsolute : path.isAbsolute = true) (s next : Stage) :
    ¬Remark path (unexpected path s next) := by
  obtain ⟨name, hname⟩ := List.head?_eq_some_iff.1 (Path.head?_text habsolute)
  generalize hline : unexpected path s next = line
  have hhead : line.text.toList.head? = some '/' := by
    rw [← hline, unexpected, LogLine.warn, String.append_assoc, String.append_assoc,
      String.append_assoc, String.toList_append, hname]
    rfl
  -- what follows the path, if it is the path that a line begins with
  have hrest (rest : String) (hwarn : line = .warn (path.text ++ rest)) :
      rest.toList.take 3 = ": u".toList := by
    rw [hwarn] at hline
    simp only [unexpected, LogLine.warn, String.append_assoc, LogLine.mk.injEq, true_and,
      String.append_right_inj] at hline
    rw [← hline, String.toList_append]
    rfl
  intro h
  cases h with
  | moved s => cases hline
  | translated n => cases hline
  | failed n e =>
    have hthird := hrest _ (by rw [String.append_assoc, String.append_assoc, String.append_assoc])
    simp [String.toList_append] at hthird
  | invalid n reason =>
    have hthird := hrest _ (by rw [String.append_assoc, String.append_assoc, String.append_assoc])
    simp [String.toList_append] at hthird
  | gaveUp n =>
    have hthird := hrest _ (by rw [String.append_assoc, String.append_assoc])
    simp [String.toList_append] at hthird
  | search e => simp [LogLine.warn] at hhead
  | format e => simp [LogLine.warn] at hhead
  | cache h =>
    cases h with
    | failed e => simp [LogLine.warn] at hhead
    | corrupt =>
      change ("corrupt cache entry " ++ Cache.entryKey path ++ ": " ++ "not an entry").toList.head? =
        some '/' at hhead
      simp at hhead

theorem remark_put {path : Path} {source : SourceFile} (c : Cache) (files : Files) (digest : Digest)
    (translation : Cache.Translation) (about : source.path = path) :
    ∀ line ∈ (c.putTranslation files source.path digest translation).2.2, Remark path line := by
  intro line hline
  rw [about] at hline
  exact .cache (Cache.remark_putTranslation c files path digest translation line hline)

theorem remark_translation? {path : Path} {source : SourceFile} (c : Cache) (files : Files)
    (digest : Digest) (about : source.path = path) :
    ∀ line ∈ (c.translation? files source.path digest).2.2, Remark path line := by
  intro line hline
  rw [about] at hline
  exact .cache (Cache.remark_translation? c files path digest line hline)

theorem remark_related (ix : Meaning.Index) (path : Path) (text : String) (count : Nat) :
    ∀ line ∈ (ix.related path text count).2, Remark path line := by
  intro line hline
  unfold Meaning.Index.related at hline
  split at hline
  · cases hline
  · rw [List.mem_singleton.1 hline]
    exact .search _

theorem remark_checkText {path : Path} (v : Assessment.Validator) (text : String) :
    ∀ line ∈ (v.checkText text).2, Remark path line := by
  intro line hline
  unfold Assessment.Validator.checkText at hline
  dsimp only at hline
  split at hline
  · cases hline
  · split at hline
    · cases hline
    · rw [List.mem_singleton.1 hline]
      exact .format _

/-! ## Stages in order -/

/-- The stages of a file that was finished, or given up, came as they should. -/
structure Item.Passed (item : Item) (finished : Bool) : Prop where
  begins : item.trace.head? = some .pending
  allowed : item.trace.IsChain fun s next => s.allows next = true
  ends : item.trace.getLast? = some (if finished then .done else .cancelled)
  /-- No stage but the last one is final. -/
  only : ∀ s ∈ item.trace.dropLast, s.isFinal = false

theorem getLast?_trace (item : Item) : item.trace.getLast? = some item.stage := by
  rw [Item.trace, Item.stage]
  cases item.later with
  | nil => rfl
  | cons s earlier => rw [List.reverse_cons, ← List.cons_append, List.getLast?_concat]; rfl

/-- Stages that nothing may follow are last. -/
theorem isFinal_of_mem_dropLast {stages : List Stage}
    (h : stages.IsChain fun s next => s.allows next = true) :
    ∀ s ∈ stages.dropLast, s.isFinal = false := by
  induction stages with
  | nil => nofun
  | cons first rest ih =>
    cases rest with
    | nil => nofun
    | cons next rest =>
      obtain ⟨hfirst, hrest⟩ := List.isChain_cons_cons.1 h
      intro s hs
      rw [List.dropLast_cons_cons] at hs
      rcases List.mem_cons.1 hs with rfl | hs
      · by_contra hfinal
        rw [Bool.not_eq_false] at hfinal
        rw [Stage.allows_eq_false_of_isFinal hfinal] at hfirst
        cases hfirst
      · exact ih hrest s hs

variable {σ : Type}

/-- A job about a file so far: only allowed changes of its stage, and nothing said about others. -/
structure Orderly (path : Path) (job : Job σ) : Prop where
  about : job.item.source.path = path
  allowed : job.item.trace.IsChain fun s next => s.allows next = true
  said : ∀ line ∈ job.log, Remark path line

namespace Orderly

variable {path : Path} {job : Job σ}

theorem start (source : SourceFile) (outline : Option Outline) (module goFile : String)
    (cache : Cache) (files : Files) (outside : σ) :
    Orderly source.path (.start source outline module goFile cache files outside) :=
  ⟨rfl, .singleton _, nofun⟩

/-- Everything but the source, the stages and the log may change. -/
theorem aside (h : Orderly path job) {b : Job σ} (hsource : b.item.source = job.item.source)
    (hlater : b.item.later = job.item.later) (hlog : b.log = job.log) : Orderly path b := by
  refine ⟨by rw [hsource, h.about], ?_, by rw [hlog]; exact h.said⟩
  rw [Item.trace, hlater]
  exact h.allowed

theorem outside (h : Orderly path job) (outside : σ) : Orderly path { job with outside } :=
  h.aside rfl rfl rfl

theorem inCache (h : Orderly path job) (cache : Cache) : Orderly path { job with cache } :=
  h.aside rfl rfl rfl

theorem fail (h : Orderly path job) (n : Nat) (reason : String) : Orderly path (job.fail n reason) :=
  h.aside rfl rfl rfl

theorem say (h : Orderly path job) {lines : Log} (hlines : ∀ line ∈ lines, Remark path line) :
    Orderly path (job.say lines) := by
  refine ⟨h.about, h.allowed, fun line hline => ?_⟩
  exact (List.mem_append.1 hline).elim (h.said line) (hlines line)

theorem sayLine (h : Orderly path job) {line : LogLine} (hline : Remark path line) :
    Orderly path (job.say [line]) :=
  h.say fun _ hmem => List.mem_singleton.1 hmem ▸ hline

/-- A change of stage that is allowed. -/
theorem move (h : Orderly path job) {next : Stage} (hnext : job.item.stage.allows next = true) :
    Orderly path (job.move next) := by
  have hmoveLog : job.item.moveLog next = [.info (path.text ++ ": " ++ next.word)] := by
    rw [Item.moveLog, if_pos hnext, h.about]
    rfl
  refine ⟨h.about, ?_, fun line hline => ?_⟩
  · rw [Job.item_move, Item.trace_move, List.isChain_append, getLast?_trace]
    refine ⟨h.allowed, .singleton _, ?_⟩
    rintro s ⟨rfl⟩ _ ⟨rfl⟩
    exact hnext
  · rw [Job.move, hmoveLog] at hline
    rcases List.mem_append.1 hline with hline | hline
    · exact h.said line hline
    · rw [List.mem_singleton.1 hline]
      exact .moved next

theorem cancel (h : Orderly path job) (hnext : job.item.stage.allows .cancelled = true) :
    Orderly path job.cancel := by
  have hfailure : Orderly path
      { job with item := { job.item with failure := some "conversion cancelled" } } :=
    h.aside rfl rfl rfl
  exact hfailure.move hnext

end Orderly

/-! ## Steps of a conversion -/

namespace Translator

variable (t : Translator σ) {path : Path} {job : Job σ}

/-- A stage in which a request can be left without code. -/
def Unanswered (s : Stage) : Prop := s = .requestSent ∨ s = .streaming

/-- What a request makes of a job: code was extracted, or the job is left where it failed. -/
structure Requested (path : Path) (result : Except InferenceError String × Job σ) : Prop where
  orderly : Orderly path result.2
  answered : ∀ code, result.1 = .ok code → result.2.item.stage = .extracted
  unanswered : ∀ e, result.1 = .error e → Unanswered result.2.item.stage

theorem requested_whole (h : Orderly path job) (hstage : job.item.stage = .requestSent)
    (prompt : Prompt) : Requested path (t.requestWhole prompt job) := by
  unfold requestWhole
  split
  · next text outside _ =>
    have hcomplete : Orderly path ({ job with outside }.move .complete) :=
      (h.outside outside).move (by rw [hstage]; rfl)
    exact ⟨hcomplete.move rfl, fun _ _ => rfl, nofun⟩
  · next e outside _ => exact ⟨h.outside outside, nofun, fun _ _ => .inl hstage⟩

theorem requested_readStream (h : Orderly path job) (hstage : job.item.stage = .requestSent)
    (chunks : List Chunk) : Requested path (t.readStream chunks job) := by
  have hstreaming : Orderly path (job.move .streaming) := h.move (by rw [hstage]; rfl)
  unfold readStream
  generalize Reply.ofChunks t.settings.earlyStop chunks = reply
  obtain ⟨taken, result⟩ := reply
  have hread := hstreaming.outside (t.service.taken taken job.outside)
  cases result with
  | ok extraction => exact ⟨hread.move rfl, fun _ _ => rfl, nofun⟩
  | error e => exact ⟨hread, nofun, fun _ _ => .inr rfl⟩

theorem requested_request (h : Orderly path job) (hstage : job.item.stage = .requestSent)
    (prompt : Prompt) : Requested path (t.request prompt job) := by
  unfold request
  split
  · split
    · next chunks outside _ => exact t.requested_readStream (h.outside outside) hstage chunks
    · next outside _ => exact t.requested_whole (h.outside outside) hstage prompt
    · next e outside _ _ => exact ⟨h.outside outside, nofun, fun _ _ => .inl hstage⟩
  · exact t.requested_whole h hstage prompt

/-- The stage that an attempt leaves a job in. -/
def Left : Attempt → Stage → Prop
  | .finished, s => s = .done
  | .cancelled, s => Unanswered s
  | .failed, s => Unanswered s ∨ s = .invalid

/-- Code that is valid ends a job in order. -/
theorem orderly_accept (h : Orderly path job) (hstage : job.item.stage = .extracted) (code : String)
    (n : Nat) : Orderly path (t.accept code n job) := by
  have hvalid : Orderly path (job.move .valid) := h.move (by rw [hstage]; rfl)
  have hput := remark_put job.cache job.files job.item.source.digest (t.translationOf code n job)
    hvalid.about
  have htold : ∀ line ∈ (job.cache.putTranslation job.files job.path job.item.source.digest
        (t.translationOf code n job)).2.2 ++ [LogLine.info
          ("Translated " ++ job.path.text ++ " in " ++ toString n ++ " attempt(s)")],
      Remark path line := by
    intro line hline
    rcases List.mem_append.1 hline with hline | hline
    · exact hput line hline
    · rw [List.mem_singleton.1 hline, Job.path, h.about]
      exact .translated n
  have hsaid : Orderly path { (job.move .valid).say _ with
      item := { job.item.move .valid with output := some code }
      cache := (job.cache.putTranslation job.files job.path job.item.source.digest
        (t.translationOf code n job)).1
      files := (job.cache.putTranslation job.files job.path job.item.source.digest
        (t.translationOf code n job)).2.1 } :=
    (hvalid.say htold).aside rfl rfl rfl
  exact hsaid.move rfl

theorem left_judge (h : Orderly path job) (hstage : job.item.stage = .extracted) (code : String)
    (n : Nat) :
    Orderly path (t.judge code n job).2 ∧
      Left (t.judge code n job).1 (t.judge code n job).2.item.stage := by
  unfold judge
  dsimp only
  generalize Go.retargetString code job.item.module = code
  have hchecked : Orderly path (job.say (t.validator.checkText code).2) :=
    h.say (remark_checkText t.validator code)
  split
  · exact ⟨t.orderly_accept hchecked hstage code n, rfl⟩
  · have hallows : job.item.stage.allows .invalid = true := by
      rw [hstage]
      rfl
    have hinvalid := hchecked.move hallows
    generalize reason (t.validator.checkText code).1 = reason
    refine ⟨(hinvalid.sayLine ?_).fail n reason, .inr rfl⟩
    rw [← h.about]
    exact .invalid n reason

theorem left_attempt (h : Orderly path job) (hstage : job.item.stage.allows .requestSent = true)
    (prompt : Prompt) (n : Nat) :
    Orderly path (t.attempt prompt n job).2 ∧
      Left (t.attempt prompt n job).1 (t.attempt prompt n job).2.item.stage := by
  have hcounted : Orderly path { job with item := { job.item with attempts := n } } :=
    h.aside rfl rfl rfl
  have hrequest := t.requested_request (hcounted.move hstage) rfl prompt
  unfold attempt
  dsimp only
  split
  · next code answered heq =>
    rw [heq] at hrequest
    exact t.left_judge hrequest.orderly (hrequest.answered code rfl) code n
  · next answered heq =>
    rw [heq] at hrequest
    exact ⟨hrequest.orderly, hrequest.unanswered _ rfl⟩
  · next e answered _ heq =>
    rw [heq] at hrequest
    refine ⟨(hrequest.orderly.sayLine ?_).fail n e.message, .inl (hrequest.unanswered e rfl)⟩
    rw [← hrequest.orderly.about]
    exact .failed n e

/-- A skeleton ends a job in order. -/
theorem orderly_fallBack (h : Orderly path job)
    (hstage : job.item.stage.allows .templateFallback = true) : Orderly path (fallBack job) := by
  have htold : Remark path (.warn (job.path.text ++ ": giving up after " ++
      toString job.item.attempts ++ " attempt(s); writing a skeleton")) := by
    rw [← h.about]
    exact .gaveUp _
  have hsaid := (h.move hstage).sayLine htold
  have hwritten : Orderly path { (job.move .templateFallback).say _ with
      item := { job.item.move .templateFallback with
        output := some (Go.Skeleton.render job.item.module job.item.source.path.fileName
          (job.item.outline.getD {}))
        fallback := true } } :=
    hsaid.aside rfl rfl rfl
  exact hwritten.move rfl

/-- A job whose work can go on, with so many requests left. -/
structure Ready (path : Path) (left : Nat) (job : Job σ) : Prop where
  orderly : Orderly path job
  none : left = 0 → job.item.stage.allows .templateFallback = true
  some : left ≠ 0 → job.item.stage.allows .requestSent = true ∧
    job.item.stage.allows .cancelled = true

theorem allows_of_unanswered {s : Stage} (h : Unanswered s) :
    s.allows .cancelled = true ∧ s.allows .retry = true ∧ s.allows .templateFallback = true := by
  rcases h with rfl | rfl <;> decide

/-- An attempt that failed leaves a job that can go on. -/
theorem ready_of_failed (h : Orderly path job) (hleft : Left .failed job.item.stage) (left : Nat) :
    Ready path left (if left = 0 then job else job.move .retry) := by
  have hallows : job.item.stage.allows .retry = true ∧
      job.item.stage.allows .templateFallback = true := by
    rcases hleft with hunanswered | hinvalid
    · exact (allows_of_unanswered hunanswered).2
    · rw [hinvalid]
      decide
  split
  · next hzero => exact ⟨h, fun _ => hallows.2, fun hne => absurd hzero hne⟩
  · next hne => exact ⟨h.move hallows.1, fun hzero => absurd hzero hne, fun _ => ⟨rfl, rfl⟩⟩

/-- A job that is done or given up. -/
structure Settled (path : Path) (result : Bool × Job σ) : Prop where
  orderly : Orderly path result.2
  stage : result.2.item.stage = if result.1 then .done else .cancelled

/-- Attempts leave a job done or given up. -/
theorem settled_attempts (prompt : Prompt) (left n : Nat) (h : Ready path left job) :
    Settled path (t.attempts prompt left n job) := by
  induction left generalizing n job with
  | zero => exact ⟨orderly_fallBack h.orderly (h.none rfl), rfl⟩
  | succ left ih =>
    obtain ⟨hsend, hcancel⟩ := h.some (Nat.succ_ne_zero left)
    have hasked : Orderly path (t.isCancelled job).2 := h.orderly.outside _
    have hstage : (t.isCancelled job).2.item.stage = job.item.stage := rfl
    unfold attempts
    split
    · next asked heq =>
      rw [heq] at hasked hstage
      exact ⟨hasked.cancel (by rw [hstage, hcancel]), rfl⟩
    · next asked heq =>
      rw [heq] at hasked hstage
      obtain ⟨hlast, hleft⟩ := t.left_attempt hasked (by rw [hstage, hsend]) prompt n
      dsimp only at hlast hleft
      generalize t.attempt prompt n asked = result at hlast hleft
      obtain ⟨ending, last⟩ := result
      cases ending with
      | finished => exact ⟨hlast, hleft⟩
      | cancelled => exact ⟨hlast.cancel (allows_of_unanswered hleft).1, rfl⟩
      | failed => exact ih (n + 1) (ready_of_failed hlast hleft left)

/-- A translation from the cache ends a job in order. -/
theorem orderly_reuse (h : Orderly path job) (hstage : job.item.stage = .cacheCheck)
    {lines : Log} (hlines : ∀ line ∈ lines, Remark path line) (cache : Cache)
    (hit : Cache.Translation) : Orderly path (reuse hit ({ job with cache }.say lines)) := by
  have hfound : Orderly path { job.say lines with
      item := { job.item with
        output := some (Go.retargetString hit.output job.item.module), cached := true }
      cache } :=
    (h.say hlines).aside rfl rfl rfl
  have hallows : job.item.stage.allows .cacheHit = true := by
    rw [hstage]
    rfl
  exact (hfound.move hallows).move rfl

theorem remark_prompt (item : Item) : ∀ line ∈ (t.prompt item).2, Remark item.source.path line :=
  remark_related t.index item.source.path _ t.settings.topK

/-- Work with the service leaves a job done or given up. -/
theorem settled_translate (hsome : t.settings.maxAttempts ≠ 0) (h : Orderly path job)
    (hstage : job.item.stage = .cacheCheck) : Settled path (t.translate job) := by
  have hmissed : Orderly path (job.move .cacheMiss) := h.move (by rw [hstage]; rfl)
  have hbuilt : Orderly path ((job.move .cacheMiss).move .contextBuild) := hmissed.move rfl
  have hprompt := t.remark_prompt ((job.move .cacheMiss).move .contextBuild).item
  rw [hbuilt.about] at hprompt
  exact t.settled_attempts _ _ 1
    ⟨hbuilt.say hprompt, fun hzero => absurd hzero hsome, fun _ => ⟨rfl, rfl⟩⟩

/-- A conversion leaves a job done or given up, if any request may be made at all. -/
theorem settled_convert (hsome : t.settings.maxAttempts ≠ 0) (h : Orderly path job)
    (hstage : job.item.stage = .pending) : Settled path (t.convert job) := by
  have hasked : Orderly path (t.isCancelled job).2 := h.outside _
  have hpending : (t.isCancelled job).2.item.stage = .pending := hstage
  unfold convert
  split
  · next asked heq =>
    rw [heq] at hasked hpending
    exact ⟨hasked.cancel (by rw [hpending]; rfl), rfl⟩
  · next asked heq =>
    rw [heq] at hasked hpending
    have hcheck : Orderly path (asked.move .cacheCheck) := hasked.move (by rw [hpending]; rfl)
    have hsaid := remark_translation? asked.cache asked.files asked.item.source.digest hasked.about
    dsimp only
    split
    · next hit cache log hfound =>
      change asked.cache.translation? asked.files asked.item.source.path asked.item.source.digest =
        _ at hfound
      rw [hfound] at hsaid
      exact ⟨orderly_reuse hcheck rfl hsaid cache hit, rfl⟩
    · next cache log hfound =>
      change asked.cache.translation? asked.files asked.item.source.path asked.item.source.digest =
        _ at hfound
      rw [hfound] at hsaid
      have hmissed : Orderly path ({ asked.move .cacheCheck with cache }.say log) :=
        (hcheck.inCache cache).say hsaid
      exact t.settled_translate hsome hmissed rfl

end Translator

/-- A conversion of a file that nothing has happened to passes through stages from `Pending` to
`Done` or `Cancelled` in an order that is allowed, and never warns about a change of stage.  The
number of requests has to fit a word. -/
theorem convert_orderly (t : Translator σ) (hretries : t.settings.maxRetries < 4294967295)
    (source : SourceFile) (outline : Option Outline) (module goFile : String) (cache : Cache)
    (files : Files) (outside : σ) :
    let result := t.convert (.start source outline module goFile cache files outside)
    result.2.item.Passed result.1 ∧ (∀ line ∈ result.2.log, Remark source.path line) ∧
      (source.path.isAbsolute = true →
        ∀ s next, unexpected source.path s next ∉ result.2.log) := by
  intro result
  have hsome : t.settings.maxAttempts ≠ 0 := by
    have hword : t.settings.maxRetries.toNat < 4294967295 := UInt32.lt_iff_toNat_lt.1 hretries
    rw [Settings.maxAttempts, UInt32.toNat_add]
    change (t.settings.maxRetries.toNat + 1) % 4294967296 ≠ 0
    omega
  have hstart : Orderly source.path (.start source outline module goFile cache files outside) :=
    .start source outline module goFile cache files outside
  have hsettled : Translator.Settled source.path result := t.settled_convert hsome hstart rfl
  obtain ⟨⟨_, hallowed, hsaid⟩, hstage⟩ := hsettled
  refine ⟨⟨rfl, hallowed, ?_, isFinal_of_mem_dropLast hallowed⟩, hsaid, ?_⟩
  · rw [getLast?_trace, hstage]
  · intro habsolute s next hmem
    exact not_remark_unexpected habsolute s next (hsaid _ hmem)

/-- A service that does not stream at first, and answers with no Go then. -/
def hesitating : Programmed where
  respond _ _ := .ok "I do not know."
  chunks := some fun _ n =>
    if n = 0 then .error .streamingUnsupported
    else .ok ["\x60\x60", "\x60go\npackage ", "common\n\x60\x60\x60\n"]

theorem convert_orderly_hesitating :
    let t : Translator Programmed := .programmed hesitating
    let source := sourceOf "x = 1\n"
    let result := t.convert (.start source none "common" "a.go" { store := .ok .memory } {}
      hesitating)
    t.settings.maxRetries < 4294967295 ∧ source.path.isAbsolute = true ∧
      result.2.item.trace = [.pending, .cacheCheck, .cacheMiss, .contextBuild, .requestSent,
        .complete, .extracted, .invalid, .retry, .requestSent, .streaming, .extracted, .valid,
        .done] ∧
      result.2.item.Passed result.1 ∧ (∀ line ∈ result.2.log, Remark source.path line) ∧
        ∀ s next, unexpected source.path s next ∉ result.2.log := by
  have hretries : (Translator.programmed hesitating).settings.maxRetries < 4294967295 := by decide
  have habsolute : (sourceOf "x = 1\n").path.isAbsolute = true := by decide +kernel
  have horderly := convert_orderly (.programmed hesitating) hretries (sourceOf "x = 1\n") none
    "common" "a.go" { store := .ok .memory } {} hesitating
  refine ⟨hretries, habsolute, ?_, ?_⟩
  · decide +kernel
  · with_reducible exact ⟨horderly.1, horderly.2.1, horderly.2.2 habsolute⟩

end Conversion

end Recast
