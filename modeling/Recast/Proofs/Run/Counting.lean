/-
  Proofs/Run/Counting.lean --- the figures of a report.

  The cache counts the translations that it was asked for, and a report counts the files that passed
  through the stages of a look-up.  Each file that was parsed and not given up at once is looked up
  once (`Work.counts_process`), so both count the same, whatever the order of the steps of the workers
  is (`completes_tallies`).
-/
import Mathlib.Algebra.Group.Nat.Defs
import Mathlib.Algebra.Group.Prod
import Mathlib.Algebra.GroupWithZero.Nat
import Recast.Proofs.Run.Listing
import Recast.Proofs.Task.Tally

set_option autoImplicit false

namespace Recast

/-! ## The counts of the cache -/

namespace Cache

/-- How many translations were found and how many were not. -/
def lookUps (c : Cache) : Nat × Nat := (c.hits, c.misses)

@[simp] theorem lookUps_reportFailure (c : Cache) (e : StoreError) :
    (c.reportFailure e).1.lookUps = c.lookUps := by
  unfold reportFailure
  split <;> rfl

@[simp] theorem lookUps_load (c : Cache) (files : Files) (path : Path) :
    (c.load files path).2.1.lookUps = c.lookUps := by
  unfold load
  split
  · rfl
  · split
    · exact lookUps_reportFailure c _
    · rfl
    · split <;> rfl

@[simp] theorem lookUps_keep (c : Cache) (files : Files) (path : Path) (entry : Entry) :
    (c.keep files path entry).1.lookUps = c.lookUps := by
  unfold keep
  split
  · rfl
  · split
    · rfl
    · exact lookUps_reportFailure c _

@[simp] theorem lookUps_outline? (c : Cache) (files : Files) (path : Path) (digest : Digest) :
    (c.outline? files path digest).2.1.lookUps = c.lookUps := lookUps_load c files path

/-- What a look-up adds to the counts. -/
def lookedUp (found : Bool) : Nat × Nat := if found then (1, 0) else (0, 1)

theorem lookUps_count (c : Cache) (found : Bool) :
    (c.count found).lookUps = c.lookUps + lookedUp found := by
  cases found <;> rfl

theorem lookUps_translation? (c : Cache) (files : Files) (path : Path) (digest : Digest) :
    (c.translation? files path digest).2.1.lookUps =
      c.lookUps + lookedUp (c.translation? files path digest).1.isSome := by
  unfold translation?
  split
  · exact lookUps_count c false
  · dsimp only
    rw [lookUps_count, lookUps_load]

/-- Nothing has been looked up in a cache that was just opened. -/
theorem lookUps_openIn (backend : Backend) (server : Except StoreError Server)
    (stateDirectory : Path) (files : Files) :
    (openIn backend server stateDirectory files).1.lookUps = 0 := by
  unfold openIn
  split <;> rfl

end Cache

namespace Run

open Conversion (Item Job Stage Translator)
open Cache (lookedUp)

variable {σ : Type}

/-- The counts of the cache that workers share. -/
def Shared.lookUps (s : Shared σ) : Nat × Nat := s.cache.lookUps

/-! ## What becomes of a file after its look-up -/

/-- A stage of a look-up. -/
def isLookUp (s : Stage) : Bool := s == .cacheCheck || s == .cacheHit || s == .cacheMiss

/-- A file that went on without a look-up. -/
structure Onward (item later : Item) : Prop where
  outline : later.outline = item.outline
  stages : ∃ stages, later.later = stages ++ item.later ∧ ∀ s ∈ stages, isLookUp s = false

namespace Onward

variable {item later last : Item}

theorem of_eq (houtline : later.outline = item.outline) (hlater : later.later = item.later) :
    Onward item later :=
  ⟨houtline, [], hlater, nofun⟩

theorem trans (h : Onward item later) (h' : Onward later last) : Onward item last := by
  obtain ⟨houtline, stages, hstages, hnone⟩ := h
  obtain ⟨houtline', stages', hstages', hnone'⟩ := h'
  refine ⟨houtline'.trans houtline, stages' ++ stages, ?_, fun s hs => ?_⟩
  · rw [hstages', hstages, List.append_assoc]
  · exact (List.mem_append.1 hs).elim (hnone' s) (hnone s)

theorem move (h : Onward item later) {next : Stage} (hnext : isLookUp next = false) :
    Onward item (later.move next) := by
  refine h.trans ⟨rfl, [next], rfl, fun s hs => ?_⟩
  rw [List.mem_singleton.1 hs, hnext]

end Onward

namespace Work

/-- Work that is done without a look-up. -/
def Silent {α : Type} (task : Task (Shared σ) α) (post : α → Prop) : Prop :=
  task.Quiet Shared.lookUps post

/-- A step of a job that asks for no translation. -/
theorem silent_onJob {β : Type} {f : Job σ → β × Job σ} {job : Job σ} {post : β × Job σ → Prop}
    (h : ∀ cache files outside,
      (f { job with cache, files, outside }).2.cache.lookUps = cache.lookUps ∧
        post (f { job with cache, files, outside })) : Silent (onJob f job) post :=
  .act fun s => h s.cache s.files s.outside

section Conversion

variable (t : Translator σ)

theorem silent_requestWhole (prompt : Prompt) (job : Job σ) :
    Silent (requestWhole t prompt job) fun r => Onward job.item r.2.item := by
  have hasked : Silent (onJob (complete t prompt) job) fun r => Onward job.item r.2.item :=
    silent_onJob fun _ _ _ => ⟨rfl, .of_eq rfl rfl⟩
  refine hasked.bind ?_
  rintro ⟨answer, asked⟩ honward
  cases answer with
  | ok text => exact .pure ((honward.move rfl).move rfl)
  | error e => exact .pure honward

theorem silent_readStream (chunks : List Chunk) (job : Job σ) :
    Silent (readStream t chunks job) fun r => Onward job.item r.2.item := by
  unfold readStream
  generalize Reply.ofChunks t.settings.earlyStop chunks = reply
  obtain ⟨read, result⟩ := reply
  have htold : Silent (onJob (taken t read) (job.move .streaming)) fun r =>
      Onward job.item r.2.item :=
    silent_onJob fun _ _ _ => ⟨rfl, (Onward.of_eq rfl rfl).move rfl⟩
  refine htold.bind ?_
  rintro ⟨_, told⟩ honward
  cases result with
  | ok extraction => exact .pure (honward.move rfl)
  | error e => exact .pure honward

theorem silent_request (prompt : Prompt) (job : Job σ) :
    Silent (request t prompt job) fun r => Onward job.item r.2.item := by
  unfold request
  split
  · have hasked : Silent (onJob (stream t prompt) job) fun r => Onward job.item r.2.item :=
      silent_onJob fun _ _ _ => ⟨rfl, .of_eq rfl rfl⟩
    refine hasked.bind ?_
    rintro ⟨answer, asked⟩ honward
    cases answer with
    | ok chunks => exact (silent_readStream t chunks asked).mono fun _ => honward.trans
    | error e =>
      cases e with
      | streamingUnsupported =>
        exact (silent_requestWhole t prompt asked).mono fun _ => honward.trans
      | timeout | cancelled | service | malformed => exact .pure honward
  · exact silent_requestWhole t prompt job

theorem silent_accept (code : String) (n : Nat) (job : Job σ) :
    Silent (accept t code n job) fun accepted => Onward job.item accepted.item := by
  have hloaded : Silent (onJob loadEntry (job.move .valid)) fun r => Onward job.item r.2.item :=
    silent_onJob fun cache files _ =>
      ⟨Cache.lookUps_load cache files job.path, (Onward.of_eq rfl rfl).move rfl⟩
  refine hloaded.bind ?_
  rintro ⟨⟨entry, now⟩, loaded⟩ honward
  have hkept : Silent (onJob (keepEntry (entryWith t code n loaded.item entry now)) loaded) fun r =>
      Onward job.item r.2.item :=
    silent_onJob fun cache files _ =>
      ⟨Cache.lookUps_keep cache files loaded.path _, honward.trans (.of_eq rfl rfl)⟩
  refine hkept.bind ?_
  rintro ⟨_, kept⟩ honward
  exact .pure (honward.trans ⟨rfl, [.done], rfl, by decide⟩)

theorem silent_judge (code : String) (n : Nat) (job : Job σ) :
    Silent (judge t code n job) fun r => Onward job.item r.2.item := by
  unfold judge
  dsimp only
  split
  · refine (silent_accept t _ n (job.say _)).bind fun accepted haccepted => ?_
    exact .pure haccepted
  · exact .pure ⟨rfl, [.invalid], rfl, by decide⟩

theorem silent_attempt (prompt : Prompt) (n : Nat) (job : Job σ) :
    Silent (attempt t prompt n job) fun r => Onward job.item r.2.item := by
  have hsent : Onward job.item ({ job.item with attempts := n }.move .requestSent) :=
    ⟨rfl, [.requestSent], rfl, by decide⟩
  refine (silent_request t prompt _).bind ?_
  rintro ⟨answer, asked⟩ hasked
  have honward : Onward job.item asked.item := hsent.trans hasked
  cases answer with
  | ok code => exact (silent_judge t code n asked).mono fun _ => honward.trans
  | error e =>
    cases e with
    | cancelled => exact .pure honward
    | timeout | service | malformed | streamingUnsupported =>
      exact .pure (honward.trans (.of_eq rfl rfl))

theorem onward_cancel (job : Job σ) : Onward job.item job.cancel.item :=
  ⟨rfl, [.cancelled], rfl, by decide⟩

theorem silent_attempts (prompt : Prompt) (left n : Nat) (job : Job σ) :
    Silent (attempts t prompt left n job) fun r => Onward job.item r.2.item := by
  induction left generalizing n job with
  | zero => exact .pure ⟨rfl, [.done, .templateFallback], rfl, by decide⟩
  | succ left ih =>
    have hasked : Silent (onJob t.isCancelled job) fun r => Onward job.item r.2.item :=
      silent_onJob fun _ _ _ => ⟨rfl, .of_eq rfl rfl⟩
    refine hasked.bind ?_
    rintro ⟨cancelled, asked⟩ honward
    cases cancelled with
    | true => exact .pure (honward.trans (onward_cancel asked))
    | false =>
      refine (silent_attempt t prompt n asked).bind ?_
      rintro ⟨ending, tried⟩ htried
      have htried := honward.trans htried
      cases ending with
      | finished => exact .pure htried
      | cancelled => exact .pure (htried.trans (onward_cancel tried))
      | failed =>
        refine (ih (n + 1) _).mono fun r hr => (htried.trans ?_).trans hr
        split
        · exact .of_eq rfl rfl
        · exact (Onward.of_eq rfl rfl).move rfl

/-- What a conversion makes of a file, with what it adds to the counts of the cache. -/
inductive Counts (item : Item) : Item → Nat × Nat → Prop
  /-- The file was given up at once. -/
  | stopped {later : Item} (outline : later.outline = item.outline)
      (stages : later.later = .cancelled :: item.later) : Counts item later 0
  /-- The file was looked up. -/
  | asked {later : Item} (found : Bool) (onward : Onward
      ((item.move .cacheCheck).move (if found then .cacheHit else .cacheMiss)) later) :
      Counts item later (lookedUp found)

theorem counts_convert (job : Job σ) :
    (convert t job).Adds Shared.lookUps (fun r n => Counts job.item r.2.item n) 0 := by
  have hasked : (onJob t.isCancelled job).Adds Shared.lookUps
      (fun r n => r.2.item = job.item ∧ n = 0) 0 :=
    .of_quiet (silent_onJob fun _ _ _ => ⟨rfl, rfl⟩) fun r hr => ⟨hr, rfl⟩
  refine hasked.bind ?_
  rintro ⟨cancelled, asked⟩ n ⟨hitem, rfl⟩
  dsimp only at hitem
  rw [← hitem]
  cases cancelled with
  | true => exact .pure (.stopped rfl rfl)
  | false =>
    have hlooked : (onJob lookUp (asked.move .cacheCheck)).Adds Shared.lookUps
        (fun r n => r.2.item = asked.item.move .cacheCheck ∧ n = lookedUp r.1.isSome) 0 := by
      refine .act fun s => ⟨_, Cache.lookUps_translation? s.cache s.files asked.path
        asked.item.source.digest, rfl, zero_add _⟩
    refine hlooked.bind ?_
    rintro ⟨hit, looked⟩ n ⟨hlookedItem, rfl⟩
    dsimp only at hlookedItem
    cases hit with
    | some hit =>
      refine .pure (.asked true ?_)
      rw [← hlookedItem]
      exact ⟨rfl, [.done], rfl, by decide⟩
    | none =>
      refine .of_quiet (silent_attempts t _ _ 1 _) fun r hr => .asked false (Onward.trans ?_ hr)
      rw [← hlookedItem]
      exact ⟨rfl, [.contextBuild], rfl, by decide⟩

end Conversion

end Work

/-! ## What is counted of a file -/

/-- What the trace of a file tells about its look-up, with what that adds to the counts. -/
inductive Counted (item : Item) : Nat × Nat → Prop
  | unparsed (outline : item.outline = none) (trace : item.trace = [.pending]) : Counted item 0
  | stopped (outline : item.outline ≠ none) (trace : item.trace = [.pending, .cancelled]) :
      Counted item 0
  | asked (found : Bool) (stages : List Stage) (outline : item.outline ≠ none)
      (trace : item.trace =
        [.pending, .cacheCheck, if found then .cacheHit else .cacheMiss] ++ stages)
      (silent : ∀ s ∈ stages, isLookUp s = false) : Counted item (lookedUp found)

/-- Nothing that is counted changes when something else about the file does. -/
theorem Counted.of_eq {item later : Item} {n : Nat × Nat} (h : Counted item n)
    (houtline : later.outline = item.outline) (hlater : later.later = item.later) :
    Counted later n := by
  have htrace : later.trace = item.trace := by rw [Item.trace, Item.trace, hlater]
  cases h with
  | unparsed outline trace => exact .unparsed (houtline.trans outline) (htrace.trans trace)
  | stopped outline trace => exact .stopped (houtline ▸ outline) (htrace.trans trace)
  | asked found stages outline trace silent =>
    exact .asked found stages (houtline ▸ outline) (htrace.trans trace) silent

theorem Work.Counts.counted {a : Analyzed} {outline : Outline} {later : Item} {n : Nat × Nat}
    (h : Counts (.start a.file (some outline) a.placement.module a.placement.fileName) later n) :
    Counted later n := by
  cases h with
  | stopped houtline hstages =>
    refine .stopped (houtline ▸ Option.some_ne_none _) ?_
    rw [Item.trace, hstages]
    rfl
  | asked found honward =>
    obtain ⟨houtline, stages, hstages, hsilent⟩ := honward
    refine .asked found stages.reverse (houtline ▸ Option.some_ne_none _) ?_ fun s hs => ?_
    · rw [Item.trace, hstages]
      cases found <;> simp [Item.move, Item.start]
    · exact hsilent s (List.mem_reverse.1 hs)

namespace Work

section Quiet

/- A part of what is shared that has to do with the service, with the counts of the cache and with
where the index is kept alone. -/
variable {H : Type} {view : Shared σ → H}
  (hview : ∀ s s' : Shared σ, s'.outside = s.outside → s'.lookUps = s.lookUps →
    s'.index.file = s.index.file → view s' = view s)

section Second

variable (t : Translator σ) (output : Path)
  (refuses : Layout.Placement → Option Layout.WriteError)

/-- A file of which nothing has changed but where its translation is. -/
def Same (item later : Item) : Prop :=
  ∃ target rewritten failure unwritten,
    later = { item with target, rewritten, failure, unwritten }

include hview

theorem quiet_put (item : Item) (content : String) :
    (put output refuses item content).Quiet view (Same item) := by
  refine .act fun s => ?_
  dsimp only
  split
  · exact ⟨hview _ _ rfl rfl rfl, _, _, _, _, rfl⟩
  · exact ⟨hview _ _ rfl rfl rfl, _, _, _, _, rfl⟩

theorem quiet_write (item : Item) (content : String) :
    (write output refuses item content).Quiet view (Same item) := by
  unfold write
  dsimp only
  split
  · have hheld : (Task.act fun s : Shared σ =>
        (Layout.holds s.files (Layout.targetPath output ⟨item.module, item.goFile⟩) content,
          s)).Quiet view fun _ => True :=
      .act fun _ => ⟨rfl, trivial⟩
    refine hheld.bind fun held _ => ?_
    split
    · exact .pure ⟨_, _, _, _, rfl⟩
    · exact quiet_put hview output refuses item content
  · exact quiet_put hview output refuses item content

theorem quiet_finish
    (hcancelled : ∀ s, view { s with outside := (t.service.cancelled s.outside).2 } = view s)
    (item : Item) : (finish t output refuses item).Quiet view (Same item) := by
  unfold finish
  split
  · exact .pure ⟨_, _, _, _, rfl⟩
  · have hasked : (Task.act (isCancelled t)).Quiet view fun _ => True :=
      .act fun s => ⟨hcancelled s, trivial⟩
    refine hasked.bind fun cancelled _ => ?_
    split
    · exact .pure ⟨_, _, _, _, rfl⟩
    · exact quiet_write hview output refuses item _

end Second

section First

include hview

theorem quiet_act {α : Type} {f : Shared σ → α × Shared σ}
    (hf : ∀ s, (f s).2.outside = s.outside ∧ (f s).2.lookUps = s.lookUps ∧
      (f s).2.index.file = s.index.file) : (Task.act f).Quiet view fun _ => True :=
  .act fun s => ⟨hview _ _ (hf s).1 (hf s).2.1 (hf s).2.2, trivial⟩

theorem quiet_forget (path : Path) : (forget path).Quiet view fun _ => True :=
  quiet_act hview fun _ => ⟨rfl, rfl, rfl⟩

theorem quiet_putAll (path : Path) (ds : List Meaning.Index.Draft) :
    (putAll path ds).Quiet view fun _ => True := by
  induction ds with
  | nil => exact .pure trivial
  | cons d ds ih =>
    refine Task.Quiet.bind (quiet_act hview fun s => ?_) fun fault _ => ?_
    · cases hput : s.index.put d.subject path d.name d.meaning d.metadata with
      | error e => exact ⟨rfl, rfl, rfl⟩
      | ok index => exact ⟨rfl, rfl, Meaning.Index.file_put hput⟩
    · cases fault with
      | none => exact ih
      | some e => exact quiet_act hview fun _ => ⟨rfl, rfl, rfl⟩

theorem quiet_learn (file : SourceFile) (o : Outline) :
    (learn file o).Quiet view fun _ => True := by
  refine Task.Quiet.bind (quiet_act hview fun _ => ⟨rfl, rfl, rfl⟩) fun enabled _ => ?_
  split
  · exact (quiet_forget hview file.path).bind fun _ _ => quiet_putAll hview file.path _
  · exact .pure trivial

theorem quiet_analyzeAnew (file : SourceFile) : (analyzeAnew file).Quiet view fun _ => True := by
  unfold analyzeAnew
  cases Outline.ofBytes file.content with
  | error e => exact (quiet_forget hview file.path).bind fun _ _ => .pure trivial
  | ok outline =>
    have hloaded : (Task.act (load file.path)).Quiet view fun _ => True :=
      quiet_act hview fun s => ⟨rfl, Cache.lookUps_load s.cache s.files file.path, rfl⟩
    refine hloaded.bind fun entry _ => ?_
    have hkept : (Task.act (keepOutline file outline entry)).Quiet view fun _ => True :=
      quiet_act hview fun s => ⟨rfl, Cache.lookUps_keep s.cache s.files file.path _, rfl⟩
    exact hkept.bind fun _ _ => (quiet_learn hview file outline).bind fun _ _ => .pure trivial

/-- The first pass asks for no translation, neither the cache nor the service. -/
theorem quiet_analyze (file : SourceFile) : (analyze file).Quiet view fun _ => True := by
  unfold analyze
  cases file.syntaxError with
  | some reason => exact (quiet_forget hview file.path).bind fun _ _ => .pure trivial
  | none =>
    have hknown : (Task.act fun s : Shared σ =>
        ((s.cache.outline? s.files file.path file.digest).1,
          { s with cache := (s.cache.outline? s.files file.path file.digest).2.1 }.say
            (s.cache.outline? s.files file.path file.digest).2.2)).Quiet view fun _ => True :=
      quiet_act hview fun s =>
        ⟨rfl, Cache.lookUps_outline? s.cache s.files file.path file.digest, rfl⟩
    refine hknown.bind fun known _ => ?_
    cases known with
    | some outline =>
      refine Task.Quiet.bind (quiet_act hview fun _ => ⟨rfl, rfl, rfl⟩) fun missing _ => ?_
      dsimp only
      split
      · exact (quiet_learn hview file outline).bind fun _ _ => .pure trivial
      · exact .pure trivial
    | none => exact quiet_analyzeAnew hview file

end First

end Quiet

section Second

variable (t : Translator σ) (output : Path)
  (refuses : Layout.Placement → Option Layout.WriteError)

/-- The work on a file adds to the counts of the cache what the trace of the file tells. -/
theorem counts_process (a : Analyzed) :
    (process t output refuses a).Adds Shared.lookUps Counted 0 := by
  unfold process
  cases a.outline with
  | error reason =>
    exact .act fun s => ⟨0, (add_zero _).symm, .unparsed rfl rfl⟩
  | ok outline =>
    dsimp only
    have hstarted : (Task.act fun s : Shared σ =>
        (({ item := .start a.file (some outline) a.placement.module a.placement.fileName
            cache := s.cache, files := s.files, outside := s.outside } : Job σ), s)).Adds
        Shared.lookUps (fun job n => job.item =
          .start a.file (some outline) a.placement.module a.placement.fileName ∧ n = 0) 0 :=
      .act fun s => ⟨0, (add_zero _).symm, rfl, add_zero 0⟩
    refine hstarted.bind ?_
    rintro job n ⟨hitem, rfl⟩
    refine (counts_convert t job).bind ?_
    rintro ⟨done, last⟩ n hcounts
    rw [hitem] at hcounts
    have hcounted := hcounts.counted
    have hsaid : (Task.act fun s : Shared σ => ((), s.say last.log)).Adds Shared.lookUps
        (fun _ m => m = n) n :=
      .act fun s => ⟨0, (add_zero _).symm, add_zero n⟩
    refine hsaid.bind ?_
    rintro - m rfl
    cases done with
    | true =>
      refine .of_quiet (quiet_finish (fun _ _ _ hcount _ => hcount) t output refuses (fun _ => rfl) last.item) ?_
      rintro later ⟨_, _, _, _, rfl⟩
      exact hcounted.of_eq rfl rfl
    | false => exact .pure hcounted

end Second

end Work

/-! ## Whole runs -/

/-- Each candidate is found or skipped. -/
theorem length_scan {s : Scan.Settings} {f : Files} {input : Path} {found : Scan.Result} {log : Log}
    (h : Scan.scan s f input = .ok (found, log)) :
    ∃ paths, Scan.candidates f input = .ok paths ∧
      found.files.length + found.skipped.length = paths.length := by
  obtain ⟨paths, hcandidates, -, hfiles⟩ := Scan.scan_eq_ok h
  refine ⟨paths, hcandidates, ?_⟩
  rw [hfiles, Scan.skipped_of_scan h hcandidates]
  clear h hcandidates hfiles
  induction paths with
  | nil => rfl
  | cons path paths ih =>
    rw [List.filterMap_cons, List.filterMap_cons, Scan.skipped?]
    cases (Scan.inspect s f path).1 with
    | ok file =>
      dsimp only [Except.toOption]
      rw [List.length_cons, List.length_cons, Nat.add_right_comm]
      exact congrArg (· + 1) ih
    | error reason =>
      dsimp only [Except.toOption]
      rw [List.length_cons, List.length_cons, ← Nat.add_assoc]
      exact congrArg (· + 1) ih

/-- The trace of a file tells what its look-up added to the counts, and whether there was one. -/
theorem Counted.told {item : Item} {n : Nat × Nat} (h : Counted item n) :
    n = ((item.trace.contains .cacheHit).toNat, (item.trace.contains .cacheMiss).toNat) ∧
      n.1 + n.2 = (item.trace.contains .cacheCheck).toNat ∧
      item.trace.contains .cacheCheck =
        (item.outline.isSome && item.trace != [.pending, .cancelled]) := by
  cases h with
  | unparsed outline trace =>
    rw [trace, outline]
    decide
  | stopped outline trace =>
    rw [trace, show item.outline.isSome = true from Option.isSome_iff_ne_none.2 outline]
    decide
  | asked found stages outline trace silent =>
    have hnot {s : Stage} (hs : isLookUp s = true) : stages.contains s = false := by
      rw [List.contains_eq_mem, decide_eq_false_iff_not]
      intro hmem
      rw [silent s hmem] at hs
      exact Bool.noConfusion hs
    have hhit := hnot (s := .cacheHit) rfl
    have hmiss := hnot (s := .cacheMiss) rfl
    rw [trace, show item.outline.isSome = true from Option.isSome_iff_ne_none.2 outline]
    cases found <;>
      simp [lookedUp, hhit, hmiss, List.contains_cons, -List.contains_eq_mem] <;> rfl

/-- How many files satisfy something. -/
theorem length_filter_cons {α : Type} (p : α → Bool) (a : α) (l : List α) :
    ((a :: l).filter p).length = (p a).toNat + (l.filter p).length := by
  rw [List.filter_cons]
  cases p a with
  | true => rw [if_pos rfl, List.length_cons, Nat.add_comm]; rfl
  | false => rw [if_neg Bool.false_ne_true]; exact (Nat.zero_add _).symm

/-- What is counted of files is counted from their traces. -/
theorem sum_counted {items : List Item} {counts : List (Nat × Nat)}
    (h : List.Forall₂ Counted items counts) :
    counts.sum = ((items.filter fun i => i.trace.contains .cacheHit).length,
        (items.filter fun i => i.trace.contains .cacheMiss).length) ∧
      counts.sum.1 + counts.sum.2 = (items.filter fun i => i.trace.contains .cacheCheck).length ∧
      (items.filter fun i => i.trace.contains .cacheCheck) =
        items.filter fun i => i.outline.isSome && i.trace != [.pending, .cancelled] := by
  induction h with
  | nil => exact ⟨rfl, rfl, rfl⟩
  | @cons item n items counts hitem _ ih =>
    obtain ⟨hcounts, hchecked, hbegun⟩ := ih
    obtain ⟨hn, hsum, hone⟩ := hitem.told
    refine ⟨?_, ?_, ?_⟩
    · rw [List.sum_cons, hcounts, hn, length_filter_cons, length_filter_cons]
      rfl
    · rw [List.sum_cons, length_filter_cons, ← hchecked, ← hsum]
      exact Nat.add_add_add_comm _ _ _ _
    · rw [List.filter_cons, List.filter_cons, hone, hbegun]

/-- Every file has one status. -/
theorem sum_statuses (items : List Item) :
    (items.filter fun i => statusOf i == .translated).length +
      (items.filter fun i => statusOf i == .fallback).length +
      ((items.filter fun i => statusOf i == .parseFailed).length +
        (items.filter fun i => statusOf i == .failed).length) +
      (items.filter fun i => statusOf i == .cached).length +
      (items.filter fun i => statusOf i == .cancelled).length = items.length := by
  induction items with
  | nil => rfl
  | cons item items ih =>
    have hone (status : Status) : (status == .translated).toNat + (status == .fallback).toNat +
        ((status == .parseFailed).toNat + (status == .failed).toNat) + (status == .cached).toNat +
        (status == .cancelled).toNat = 1 := by
      cases status <;> rfl
    have hstatus := hone (statusOf item)
    simp only [length_filter_cons, List.length_cons]
    omega

/-- A report whose figures agree, about a run that found the source files of an input in a tree of
files. -/
structure Report.Tallies (report : Report) (found : Files) (input : Path) : Prop where
  /-- All files that were discovered are counted. -/
  total : ∃ paths, Scan.candidates found input = .ok paths ∧ report.filesTotal = paths.length
  /-- Each file of the report is counted under one status. -/
  statuses : report.count .translated + report.count .fallback + report.failed +
    report.count .cached + report.count .cancelled = report.items.length
  /-- The traces tell of as many translations that were found as the cache counted. -/
  hits : report.cacheHits = report.cache.hits
  misses : report.cacheMisses = report.cache.misses
  /-- As many files were looked up. -/
  lookedUp : report.cache.hits + report.cache.misses = report.passed .cacheCheck
  /-- Those are the files that were parsed and not given up before their conversion began. -/
  begun : report.passed .cacheCheck =
    (report.items.filter fun i => i.outline.isSome && i.trace != [.pending, .cancelled]).length

/-- The report holds what the cache counted. -/
theorem lookUps_conclude (service : Service σ) (v : Assessment.Validator) (r : Request)
    (found : Scan.Result) (items : List Item) (s : Shared σ) :
    ((conclude service v r found items s).1.cache.hits,
      (conclude service v r found items s).1.cache.misses) = s.lookUps := by
  have hstats (c : Cache) (files : Files) :
      ((c.stats files).hits, (c.stats files).misses) = c.lookUps := by
    unfold Cache.stats
    split <;> rfl
  have hdescribe (items : List Item) : (describe r items s).2.cache = s.cache := by
    unfold describe
    split
    · rfl
    · split <;> rfl
  unfold conclude
  dsimp only [Shared.say]
  rw [hstats, hdescribe]
  rfl

/-- The first pass leaves alone what has to do with the service, with the counts of the cache and with
where the index is kept. -/
theorem view_first {H : Type} {view : Shared σ → H}
    (hview : ∀ s s' : Shared σ, s'.outside = s.outside → s'.lookUps = s.lookUps →
      s'.index.file = s.index.file → view s' = view s) {files : List SourceFile}
    {s analyzed : Shared σ} {outlines : List (Except String Outline)}
    (h : Task.Interleave (files.map Work.analyze) s outlines analyzed) : view analyzed = view s := by
  refine h.quiet fun t ht => ?_
  obtain ⟨file, -, rfl⟩ := List.mem_map.1 ht
  exact Work.quiet_analyze hview file

/-- Nothing has been looked up before the second pass. -/
theorem lookUps_first {r : Request} {found : Scan.Result} {files : List SourceFile}
    {s analyzed : Shared σ} {outlines : List (Except String Outline)}
    (h : Task.Interleave (files.map Work.analyze) (begin r found s) outlines analyzed) :
    analyzed.flush.lookUps = s.lookUps := by
  have hfirst : analyzed.lookUps = (begin r found s).lookUps :=
    view_first (fun _ _ _ hcount _ => hcount) h
  rw [Shared.lookUps, cache_flush]
  exact hfirst

theorem Counted.judge {item : Item} {n : Nat × Nat} (h : Counted item n)
    (v : Assessment.Validator) (modules : Table String Assessment.ModuleCheck) :
    Counted (judge v modules item) n := by
  refine h.of_eq ?_ ?_
  · unfold Run.judge
    split <;> rfl
  · unfold Run.judge
    split <;> rfl

/-- Whatever the service, the cancellation, the writes that fail and the order of the steps of the
workers are, the figures of a report agree, and agree with those of the cache. -/
theorem completes_tallies {service : Service σ} {v : Assessment.Validator} {r : Request}
    {refuses : Layout.Placement → Option Layout.WriteError} {files : Files} {outside : σ}
    {report : Report} {last : Shared σ}
    (h : Completes service v r refuses files outside report last) :
    report.Tallies (Shared.openFor r files outside).files r.input := by
  cases h with
  | @intro found log outlines analyzed worked items pushed scanned first second order =>
  have hlength : outlines.length = found.files.length := by
    rw [first.length_eq, List.length_map]
  have hopened : analyzed.flush.lookUps = 0 :=
    (lookUps_first first).trans (Cache.lookUps_openIn _ _ _ _)
  have htasks : List.Forall₂ (fun n t => t.Adds Shared.lookUps Counted n)
      ((assign r found outlines).map fun _ => 0)
      ((assign r found outlines).map (Work.process
        ⟨service, v, analyzed.flush.index, r.conversion⟩ r.output refuses)) := by
    rw [List.forall₂_map_left_iff, List.forall₂_map_right_iff, List.forall₂_same]
    exact fun a _ => Work.counts_process _ r.output refuses a
  obtain ⟨counts, hcounts, htotal⟩ := second.total htasks
  have hnone : ((assign r found outlines).map fun _ => (0 : Nat × Nat)).sum = 0 :=
    List.sum_eq_zero fun n hn => by
      obtain ⟨-, -, rfl⟩ := List.mem_map.1 hn
      rfl
  rw [hopened, hnone, add_zero, zero_add] at htotal
  -- The report lists the files in another order.
  have hperm := (List.mergeSort_perm pushed fun a b => a.source.path.le b.source.path).trans order
  obtain ⟨sorted, hsorted, hcountsPerm⟩ := List.perm_comp_forall₂ hperm hcounts
  obtain ⟨hskipped, modules, hitems⟩ := exists_items_conclude service v r found pushed worked
  have hcache := lookUps_conclude service v r found pushed worked
  generalize (conclude service v r found pushed worked).1 = report at *
  have hlisted : List.Forall₂ Counted report.items sorted := by
    rw [hitems, List.forall₂_map_left_iff]
    exact hsorted.imp fun item n hn => hn.judge v modules
  obtain ⟨hcounted, hchecked, hbegun⟩ := sum_counted hlisted
  rw [hcountsPerm.sum_eq, ← htotal, ← hcache] at hcounted hchecked
  obtain ⟨hhits, hmisses⟩ := Prod.mk.inj hcounted
  refine ⟨?_, sum_statuses report.items, hhits.symm, hmisses.symm, hchecked, ?_⟩
  · obtain ⟨paths, hcandidates, hall⟩ := length_scan scanned
    refine ⟨paths, hcandidates, ?_⟩
    have hfiles : (assign r found outlines).length = found.files.length := by
      rw [← files_assign r found hlength, List.length_map]
    rw [Report.filesTotal, hskipped, ← hall, hitems, List.length_map, hperm.length_eq,
      second.length_eq, List.length_map, hfiles]
  · rw [Report.passed, hbegun]

/-- A run over two files, both of which the cache does not have. -/
theorem completes_tallies_two :
    let files := inputTree [["a", "utils.py"], ["b", "utils.py"]]
    ∃ report last, Completes (Programmed.service .usual) {} plainRequest (fun _ => none) files
        Programmed.usual report last ∧ report.Tallies files ⟨"in"⟩ ∧ report.filesTotal = 2 := by
  intro files
  have hcandidates : Scan.candidates files ⟨"in"⟩ = .ok [⟨"in/a/utils.py"⟩, ⟨"in/b/utils.py"⟩] := by
    decide +kernel
  obtain ⟨found, log, hfound, -⟩ := Scan.exists_scan (s := {}) hcandidates (by decide)
  have hscan : Scan.scan plainRequest.tools.scan
      (Shared.openFor plainRequest files Programmed.usual).files plainRequest.input =
        .ok (found, log) := hfound
  have hcompletes := completes_runOn (Programmed.service .usual) {} plainRequest hscan
  have htallies := completes_tallies hcompletes
  refine ⟨_, _, hcompletes, htallies, ?_⟩
  obtain ⟨paths, hpaths, htotal⟩ := htallies.total
  cases hcandidates.symm.trans hpaths
  exact htotal

end Run

end Recast
