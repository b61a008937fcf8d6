/-
  Proofs/Run/Indexing.lean --- what the index of meanings has to do with the work on files.

  Steps of the index cannot be noticed in states that are alike (`Work.hidden_learn`), and a service
  that ignores related places answers the same whatever the index found.  So the work on a file in
  one of two alike states can keep up with the work on it in the other one, step by step, and ends
  alike (`Work.matches_analyze`, `Work.matches_process`).
-/
import Recast.Proofs.Run.Alike
import Recast.Proofs.Task.Simulation

set_option autoImplicit false

namespace Recast

/-! ## Services that ignore related places -/

/-- Prompts that differ at most in the related places that they show. -/
def PromptText.SameButRelated (p p' : Prompt) : Prop :=
  ∃ topK file o found found' hints package,
    p = build topK file o found hints package ∧ p' = build topK file o found' hints package

/-- A service whose answers are determined by the prompt without the related places in it. -/
structure Service.IgnoresRelated {σ : Type} (service : Service σ) : Prop where
  complete : ∀ {p p' : Prompt}, PromptText.SameButRelated p p' → ∀ u u',
    (service.complete p' u').1 = (service.complete p u).1
  stream : ∀ {p p' : Prompt}, PromptText.SameButRelated p p' → ∀ u u',
    (service.stream p' u').1 = (service.stream p u).1

theorem Conversion.Translator.prompt_index {σ : Type} (t : Translator σ) (other : Meaning.Index)
    (item : Item) :
    PromptText.SameButRelated (t.prompt item).1 ({ t with index := other }.prompt item).1 :=
  ⟨_, _, _, _, _, _, _, rfl, rfl⟩

namespace Run

open Conversion (Item Job Stage Translator)

variable {σ : Type}

/-! ## Work in alike states -/

namespace Work

/-- Work that other work can keep up with in alike states. -/
def Matches {α β : Type} (output : Path) (post : α → β → Prop) (task : Task (Shared σ) α)
    (task' : Task (Shared σ) β) : Prop :=
  task.Simulated (Alike output) post task'

/-- The same file, whose translation has its place. -/
structure SameAt (place : Layout.Placement) (item item' : Item) : Prop where
  eq : item' = item
  place : Layout.Placement.mk item.module item.goFile = place

theorem SameAt.change {place : Layout.Placement} {item item' : Item} (h : SameAt place item item')
    (f : Item → Item)
    (hf : ∀ item, Layout.Placement.mk (f item).module (f item).goFile = ⟨item.module, item.goFile⟩) :
    SameAt place (f item) (f item') :=
  ⟨congrArg f h.eq, (hf item).trans h.place⟩

theorem SameAt.move {place : Layout.Placement} {item item' : Item} (h : SameAt place item item')
    (next : Stage) : SameAt place (item.move next) (item'.move next) :=
  h.change (Item.move · next) fun _ => rfl

/-- The same answer about the same file. -/
def SameAnswer {β : Type} (place : Layout.Placement) (r r' : β × Job σ) : Prop :=
  r'.1 = r.1 ∧ SameAt place r.2.item r'.2.item

section Conversion

variable {output : Path} {place : Layout.Placement} (t : Translator σ) {job job' : Job σ}

/-- Steps of jobs that leave the index alone. -/
theorem matches_onJob {β : Type} {f g : Job σ → β × Job σ}
    (h : ∀ s s' : Shared σ, Alike output s s' →
      Alike output (s.back (f (s.lend job)).2) (s'.back (g (s'.lend job')).2) ∧
        SameAnswer place (f (s.lend job)) (g (s'.lend job'))) :
    Matches output (SameAnswer place) (onJob f job) (onJob g job') := .act h

/-- The service is asked, and answers the same. -/
theorem matches_asked {β : Type} {f g : Job σ → β × Job σ} (hitem : SameAt place job.item job'.item)
    (hf : ∀ job, ∃ outside, (f job).2 = { job with outside })
    (hg : ∀ job, ∃ outside, (g job).2 = { job with outside })
    (hanswer : ∀ job job', (g job').1 = (f job).1) :
    Matches output (SameAnswer place) (onJob f job) (onJob g job') := by
  refine matches_onJob fun s s' hs => ?_
  obtain ⟨outside, hleft⟩ := hf (s.lend job)
  obtain ⟨outside', hright⟩ := hg (s'.lend job')
  refine ⟨?_, hanswer _ _, ?_⟩
  · rw [hleft, hright]
    exact hs.congr hs.cache rfl rfl rfl rfl rfl
  · rw [hleft, hright]
    exact hitem

theorem matches_requestWhole (hservice : t.service.IgnoresRelated) {prompt prompt' : Prompt}
    (hprompt : PromptText.SameButRelated prompt prompt') (hitem : SameAt place job.item job'.item) :
    Matches output (SameAnswer place) (requestWhole t prompt job) (requestWhole t prompt' job') := by
  have hasked : Matches output (SameAnswer place) (onJob (complete t prompt) job)
      (onJob (complete t prompt') job') :=
    matches_asked hitem (fun _ => ⟨_, rfl⟩) (fun _ => ⟨_, rfl⟩)
      fun _ _ => hservice.complete hprompt _ _
  refine hasked.bind ?_
  rintro ⟨answer, asked⟩ ⟨answer', asked'⟩ ⟨hanswer, hitem⟩
  dsimp only at hanswer
  subst hanswer
  cases answer' with
  | ok text => exact .pure ⟨rfl, (hitem.move .complete).move .extracted⟩
  | error e => exact .pure ⟨rfl, hitem⟩

theorem matches_readStream (chunks : List Chunk) (hitem : SameAt place job.item job'.item) :
    Matches output (SameAnswer place) (readStream t chunks job) (readStream t chunks job') := by
  unfold readStream
  generalize Reply.ofChunks t.settings.earlyStop chunks = reply
  obtain ⟨read, result⟩ := reply
  have htold : Matches output (SameAnswer place) (onJob (taken t read) (job.move .streaming))
      (onJob (taken t read) (job'.move .streaming)) :=
    matches_asked (hitem.move .streaming) (fun _ => ⟨_, rfl⟩) (fun _ => ⟨_, rfl⟩) fun _ _ => rfl
  refine htold.bind ?_
  rintro ⟨_, told⟩ ⟨_, told'⟩ ⟨-, hitem⟩
  cases result with
  | ok extraction => exact .pure ⟨rfl, hitem.move .extracted⟩
  | error e => exact .pure ⟨rfl, hitem⟩

theorem matches_request (hservice : t.service.IgnoresRelated) {prompt prompt' : Prompt}
    (hprompt : PromptText.SameButRelated prompt prompt') (hitem : SameAt place job.item job'.item) :
    Matches output (SameAnswer place) (request t prompt job) (request t prompt' job') := by
  unfold request
  split
  · have hasked : Matches output (SameAnswer place) (onJob (stream t prompt) job)
        (onJob (stream t prompt') job') :=
      matches_asked hitem (fun _ => ⟨_, rfl⟩) (fun _ => ⟨_, rfl⟩)
        fun _ _ => hservice.stream hprompt _ _
    refine hasked.bind ?_
    rintro ⟨answer, asked⟩ ⟨answer', asked'⟩ ⟨hanswer, hitem⟩
    dsimp only at hanswer
    subst hanswer
    cases answer' with
    | ok chunks => exact matches_readStream t chunks hitem
    | error e =>
      cases e with
      | streamingUnsupported => exact matches_requestWhole t hservice hprompt hitem
      | timeout | cancelled | service | malformed => exact .pure ⟨rfl, hitem⟩
  · exact matches_requestWhole t hservice hprompt hitem

/-- The same entry is loaded. -/
theorem matches_loadEntry (hitem : SameAt place job.item job'.item) :
    Matches output (SameAnswer place) (onJob loadEntry job) (onJob loadEntry job') := by
  have hpath : job'.path = job.path := congrArg (fun item : Item => item.source.path) hitem.eq
  refine matches_onJob fun s s' hs => ?_
  have hload : s'.cache.load s'.files job'.path = s.cache.load s.files job.path := by
    rw [hpath]
    exact hs.load job.path
  refine ⟨hs.congr ?_ ?_ rfl rfl rfl rfl, ?_, hitem⟩
  · exact congrArg (fun loaded => loaded.2.1) hload
  · exact (Cache.consulted_load s.cache s.files job.path).store
  · have hentry := congrArg Prod.fst hload
    have hnow := congrArg Cache.now hs.cache
    exact Prod.ext hentry hnow

/-- The same entry is kept. -/
theorem matches_keepEntry (entry : Cache.Entry) (hitem : SameAt place job.item job'.item) :
    Matches output (SameAnswer place) (onJob (keepEntry entry) job) (onJob (keepEntry entry) job') := by
  have hpath : job'.path = job.path := congrArg (fun item : Item => item.source.path) hitem.eq
  refine matches_onJob fun s s' hs => ⟨hs.keep job.path entry rfl rfl ?_ ?_ rfl rfl, rfl, hitem⟩
  · rw [← hpath]
    rfl
  · rw [← hpath]
    rfl

theorem matches_accept (code : String) (n : Nat) (hitem : SameAt place job.item job'.item) :
    Matches output (fun accepted accepted' => SameAt place accepted.item accepted'.item)
      (accept t code n job) (accept t code n job') := by
  have hloaded : Matches output (SameAnswer place) (onJob loadEntry (job.move .valid))
      (onJob loadEntry (job'.move .valid)) := matches_loadEntry (hitem.move .valid)
  refine hloaded.bind ?_
  rintro ⟨⟨entry, now⟩, loaded⟩ ⟨⟨entry', now'⟩, loaded'⟩ ⟨hanswer, hitem⟩
  cases hanswer
  have hentry : entryWith t code n loaded'.item entry now = entryWith t code n loaded.item entry now :=
    congrArg (entryWith t code n · entry now) hitem.eq
  dsimp only
  rw [hentry]
  refine (matches_keepEntry _ hitem).bind ?_
  rintro ⟨_, kept⟩ ⟨_, kept'⟩ ⟨-, hitem⟩
  exact .pure (hitem.change (fun item => { item with output := some code }.move .done) fun _ => rfl)

theorem matches_judge (code : String) (n : Nat) (hitem : SameAt place job.item job'.item) :
    Matches output (SameAnswer place) (judge t code n job) (judge t code n job') := by
  unfold judge
  rw [hitem.eq]
  dsimp only
  split
  · have haccepted (code : String) (log : Log) :
        Matches output (fun accepted accepted' => SameAt place accepted.item accepted'.item)
          (accept t code n (job.say log)) (accept t code n (job'.say log)) :=
      matches_accept t code n hitem
    refine (haccepted _ _).bind ?_
    rintro accepted accepted' hitem
    exact .pure ⟨rfl, hitem⟩
  · exact .pure ⟨rfl, (hitem.move .invalid).change (fun item => { item with
      failures := item.failures ++ ["attempt " ++ toString n ++ ": " ++ _] }) fun _ => rfl⟩

theorem matches_attempt (hservice : t.service.IgnoresRelated) {prompt prompt' : Prompt}
    (hprompt : PromptText.SameButRelated prompt prompt') (n : Nat)
    (hitem : SameAt place job.item job'.item) :
    Matches output (SameAnswer place) (attempt t prompt n job) (attempt t prompt' n job') := by
  have hsent := hitem.change (fun item => { item with attempts := n }.move .requestSent) fun _ => rfl
  have hasked : Matches output (SameAnswer place)
      (request t prompt ({ job with item := { job.item with attempts := n } }.move .requestSent))
      (request t prompt' ({ job' with item := { job'.item with attempts := n } }.move .requestSent)) :=
    matches_request t hservice hprompt hsent
  refine hasked.bind ?_
  rintro ⟨answer, asked⟩ ⟨answer', asked'⟩ ⟨hanswer, hitem⟩
  dsimp only at hanswer
  subst hanswer
  cases answer' with
  | ok code => exact matches_judge t code n hitem
  | error e =>
    have hfailed := hitem.change (fun item => { item with
      failures := item.failures ++ ["attempt " ++ toString n ++ ": " ++ e.message] }) fun _ => rfl
    cases e with
    | cancelled => exact .pure ⟨rfl, hitem⟩
    | timeout | service | malformed | streamingUnsupported => exact .pure ⟨rfl, hfailed⟩

/-- The work is not given up. -/
theorem matches_isCancelled (hgoes : ∀ u, (t.service.cancelled u).1 = false)
    (hitem : SameAt place job.item job'.item) :
    Matches output (fun r r' => r.1 = false ∧ SameAnswer place r r') (onJob t.isCancelled job)
      (onJob t.isCancelled job') := by
  refine .act fun s s' hs => ⟨?_, hgoes _, ?_, hitem⟩
  · exact hs.congr hs.cache rfl rfl rfl rfl rfl
  · exact (hgoes _).trans (hgoes _).symm

theorem matches_attempts (other : Meaning.Index) (hservice : t.service.IgnoresRelated)
    (hgoes : ∀ u, (t.service.cancelled u).1 = false) {prompt prompt' : Prompt}
    (hprompt : PromptText.SameButRelated prompt prompt') (left n : Nat)
    (hitem : SameAt place job.item job'.item) :
    Matches output (SameAnswer place) (attempts t prompt left n job)
      (attempts { t with index := other } prompt' left n job') := by
  induction left generalizing n job job' with
  | zero =>
    have hlast := hitem.change (fun item => { item.move .templateFallback with
      output := some (Go.Skeleton.render item.module item.source.path.fileName
        (item.outline.getD {})), fallback := true }.move .done) fun _ => rfl
    exact .pure ⟨rfl, hlast⟩
  | succ left ih =>
    refine (matches_isCancelled t hgoes hitem).bind ?_
    rintro ⟨cancelled, asked⟩ ⟨cancelled', asked'⟩ ⟨hgoing, hanswer, hitem⟩
    dsimp only at hgoing hanswer
    subst hgoing hanswer
    refine (matches_attempt t hservice hprompt n hitem).bind ?_
    rintro ⟨ending, tried⟩ ⟨ending', tried'⟩ ⟨hanswer, hitem⟩
    dsimp only at hanswer
    subst hanswer
    cases ending' with
    | finished => exact .pure ⟨rfl, hitem⟩
    | cancelled =>
      exact .pure ⟨rfl, hitem.change (fun item =>
        { item with failure := some "conversion cancelled" }.move .cancelled) fun _ => rfl⟩
    | failed =>
      refine ih (n + 1) ?_
      split
      · exact hitem
      · exact hitem.move .retry

/-- The translation that the cache has is looked up. -/
theorem matches_lookUp (hitem : SameAt place job.item job'.item) :
    Matches output (SameAnswer place) (onJob lookUp job) (onJob lookUp job') := by
  have hpath : job'.path = job.path := congrArg (fun item : Item => item.source.path) hitem.eq
  refine matches_onJob fun s s' hs => ?_
  have hfound : s'.cache.translation? s'.files job'.path job'.item.source.digest =
      s.cache.translation? s.files job.path job.item.source.digest := by
    unfold Cache.translation?
    rw [hpath, hitem.eq, hs.load job.path, hs.cache]
  refine ⟨hs.congr ?_ ?_ rfl rfl rfl rfl, ?_, hitem⟩
  · exact congrArg (fun found => found.2.1) hfound
  · exact (Cache.consulted_translation? s.cache s.files job.path job.item.source.digest).store
  · have hhit := congrArg Prod.fst hfound
    exact hhit

/-- A file is converted in the same way whatever the index knows. -/
theorem matches_convert (other : Meaning.Index) (hservice : t.service.IgnoresRelated)
    (hgoes : ∀ u, (t.service.cancelled u).1 = false) (hitem : SameAt place job.item job'.item) :
    Matches output (SameAnswer place) (convert t job) (convert { t with index := other } job') := by
  refine (matches_isCancelled t hgoes hitem).bind ?_
  rintro ⟨cancelled, asked⟩ ⟨cancelled', asked'⟩ ⟨hgoing, hanswer, hitem⟩
  dsimp only at hgoing hanswer
  subst hgoing hanswer
  have hlooked : Matches output (SameAnswer place) (onJob lookUp (asked.move .cacheCheck))
      (onJob lookUp (asked'.move .cacheCheck)) := matches_lookUp (hitem.move .cacheCheck)
  refine hlooked.bind ?_
  rintro ⟨hit, looked⟩ ⟨hit', looked'⟩ ⟨hanswer, hitem⟩
  dsimp only at hanswer
  subst hanswer
  cases hit' with
  | some hit =>
    have hreused := hitem.change (fun item => ({ item with
      output := some (Go.retargetString hit.output item.module), cached := true }.move .cacheHit).move
        .done) fun _ => rfl
    exact .pure ⟨rfl, hreused⟩
  | none =>
    have hbuilt := (hitem.move .cacheMiss).move .contextBuild
    have hprompt : PromptText.SameButRelated
        (t.prompt ((looked.move .cacheMiss).move .contextBuild).item).1
        ({ t with index := other }.prompt ((looked'.move .cacheMiss).move .contextBuild).item).1 := by
      rw [show ((looked'.move .cacheMiss).move .contextBuild).item =
        ((looked.move .cacheMiss).move .contextBuild).item from hbuilt.eq]
      exact t.prompt_index other _
    exact matches_attempts t other hservice hgoes hprompt _ 1 hbuilt

end Conversion

/-! ## The first pass -/

section First

variable {output : Path}

/-- States that are alike are so either way. -/
theorem alike_flip : (fun s' s : Shared σ => Alike output s s') = Alike output :=
  funext₂ fun _ _ => propext ⟨Alike.symm, Alike.symm⟩

/-- Work that cannot be noticed, whatever the same work finds in the other state. -/
theorem matches_hidden {α β : Type} {post : α → β → Prop} {left : α → Prop} {right : β → Prop}
    {change : Shared σ → Shared σ} {next : Shared σ → Task (Shared σ) α} {task' : Task (Shared σ) β}
    (h : (Task.step change next).Hidden (Alike output) left)
    (h' : task'.Hidden (Alike output) right) (hpost : ∀ a b, left a → right b → post a b) :
    Matches output post (.step change next) task' :=
  .hidden h (alike_flip ▸ h') hpost

/-- A step that only changes what the index knows. -/
theorem hidden_index {β : Type} {f : Shared σ → β × Shared σ}
    (h : ∀ s, (f s).2.cache = s.cache ∧ (f s).2.files = s.files ∧
      (f s).2.index.file = s.index.file) : (Task.act f).Hidden (Alike output) fun _ => True :=
  .act fun s _ hs => ⟨hs.learn (h s).1 (h s).2.1 (h s).2.2, trivial⟩

theorem hidden_forget (path : Path) :
    (forget path : Task (Shared σ) Unit).Hidden (Alike output) fun _ => True :=
  hidden_index fun _ => ⟨rfl, rfl, rfl⟩

theorem hidden_putAll (path : Path) (ds : List Meaning.Index.Draft) :
    (putAll path ds : Task (Shared σ) Unit).Hidden (Alike output) fun _ => True := by
  induction ds with
  | nil => exact .pure trivial
  | cons d ds ih =>
    refine .bind (hidden_index fun s => ?_) fun fault _ => ?_
    · cases hput : s.index.put d.subject path d.name d.meaning d.metadata with
      | error e => exact ⟨rfl, rfl, rfl⟩
      | ok index => exact ⟨rfl, rfl, Meaning.Index.file_put hput⟩
    · cases fault with
      | none => exact ih
      | some e => exact hidden_index fun _ => ⟨rfl, rfl, rfl⟩

/-- What the index learns about a file cannot be noticed. -/
theorem hidden_learn (file : SourceFile) (outline : Outline) :
    (learn file outline : Task (Shared σ) Unit).Hidden (Alike output) fun _ => True := by
  refine .bind (hidden_index fun _ => ⟨rfl, rfl, rfl⟩) ?_
  rintro enabled -
  cases enabled with
  | true => exact (hidden_forget file.path).bind fun _ _ => hidden_putAll file.path _
  | false => exact .pure trivial

/-- A file that the cache does not know is found to be the same. -/
theorem matches_analyzeAnew (file : SourceFile) :
    Matches output Eq (analyzeAnew file : Task (Shared σ) (Except String Outline))
      (analyzeAnew file) := by
  unfold analyzeAnew
  split
  · exact .bind (matches_hidden (hidden_forget file.path) (hidden_forget file.path)
      fun _ _ _ _ => trivial) fun _ _ _ => .pure rfl
  · next outline _ =>
    have hloaded : Matches output Eq (Task.act (load file.path : Shared σ → _))
        (Task.act (load file.path)) := by
      refine .act fun s s' hs => ?_
      have hload := hs.load file.path
      refine ⟨hs.congr ?_ (Cache.consulted_load s.cache s.files file.path).store rfl rfl rfl rfl, ?_⟩
      · exact congrArg (fun loaded => loaded.2.1) hload
      · exact (congrArg Prod.fst hload).symm
    refine hloaded.bind ?_
    rintro entry _ rfl
    have hkept : Matches output (fun _ _ => True) (Task.act (keepOutline file outline entry : Shared σ → _))
        (Task.act (keepOutline file outline entry)) :=
      .act fun s s' hs => ⟨hs.keep file.path _ rfl rfl rfl rfl rfl rfl, trivial⟩
    refine hkept.bind fun _ _ _ => ?_
    exact .bind (matches_hidden (hidden_learn file outline) (hidden_learn file outline)
      fun _ _ _ _ => trivial) fun _ _ _ => .pure rfl

/-- A file is found to be the same whatever the index knows. -/
theorem matches_analyze (file : SourceFile) :
    Matches output Eq (analyze file : Task (Shared σ) (Except String Outline)) (analyze file) := by
  unfold analyze
  split
  · exact .bind (matches_hidden (hidden_forget file.path) (hidden_forget file.path)
      fun _ _ _ _ => trivial) fun _ _ _ => .pure rfl
  · have hasked : Matches output Eq
        (Task.act fun s : Shared σ =>
          ((s.cache.outline? s.files file.path file.digest).1,
            { s with cache := (s.cache.outline? s.files file.path file.digest).2.1 }.say
              (s.cache.outline? s.files file.path file.digest).2.2))
        (Task.act fun s : Shared σ =>
          ((s.cache.outline? s.files file.path file.digest).1,
            { s with cache := (s.cache.outline? s.files file.path file.digest).2.1 }.say
              (s.cache.outline? s.files file.path file.digest).2.2)) := by
      refine .act fun s s' hs => ?_
      have hknown : s'.cache.outline? s'.files file.path file.digest =
          s.cache.outline? s.files file.path file.digest := by
        unfold Cache.outline?
        rw [hs.load file.path]
      refine ⟨hs.congr ?_ (Cache.consulted_outline? s.cache s.files file.path file.digest).store rfl
        rfl rfl rfl, ?_⟩
      · exact congrArg (fun known => known.2.1) hknown
      · exact (congrArg Prod.fst hknown).symm
    refine hasked.bind ?_
    rintro known _ rfl
    cases known with
    | none => exact matches_analyzeAnew file
    | some outline =>
      -- Each of the two indexes may or may not have lost the file.
      have hindexed : ((do
          if ← Task.act fun s : Shared σ => ((s.index.fileMeaning? file.path).isNone, s) then
            learn file outline
          return .ok outline : Task (Shared σ) (Except String Outline))).Hidden (Alike output)
          (· = .ok outline) := by
        refine .bind (hidden_index fun _ => ⟨rfl, rfl, rfl⟩) ?_
        rintro lost -
        cases lost with
        | true => exact (hidden_learn file outline).bind fun _ _ => .pure rfl
        | false => exact .pure rfl
      exact matches_hidden hindexed hindexed fun _ _ ha hb => ha.trans hb.symm

end First

/-! ## The second pass -/

/-- The same file, but for whether its translation had to be written and why that failed. -/
def SameFile (item item' : Item) : Prop :=
  ∃ rewritten failure, failure.isSome = item.failure.isSome ∧
    item' = { item with rewritten, failure }

theorem SameFile.refl (item : Item) : SameFile item item :=
  ⟨item.rewritten, item.failure, rfl, rfl⟩

theorem SameFile.trans {item item' item'' : Item} (h : SameFile item item')
    (h' : SameFile item' item'') : SameFile item item'' := by
  obtain ⟨rewritten, failure, hfailure, rfl⟩ := h
  obtain ⟨rewritten', failure', hfailure', rfl⟩ := h'
  exact ⟨rewritten', failure', hfailure'.trans hfailure, rfl⟩

section Second

variable {output : Path} {item : Item} {content : String}

/-- A file after an attempt to put its translation into its Go file. -/
def attempted (output : Path) (item : Item) : Option Layout.WriteError → Item
  | none => { item with
      target := some (Layout.targetPath output ⟨item.module, item.goFile⟩), rewritten := true }
  | some e => { item with failure := some e.message }

theorem SameFile.attempted {fault? fault?' : Option Layout.WriteError}
    (h : fault?'.isSome = fault?.isSome) :
    SameFile (attempted output item fault?) (attempted output item fault?') := by
  cases fault? with
  | none =>
    rw [Option.isSome_none, Option.isSome_eq_false_iff, Option.isNone_iff_eq_none] at h
    rw [h]
    exact .refl _
  | some e =>
    obtain ⟨e', rfl⟩ := Option.isSome_iff_exists.1 h
    exact ⟨item.rewritten, some e'.message, rfl, rfl⟩

theorem run_put_eq (output : Path) (item : Item) (content : String) (s : Shared σ) :
    ∃ lines, (put output (fun _ => none) item content).run s =
      (attempted output item
          (Layout.attempt s.files output ⟨item.module, item.goFile⟩ content).1,
        { s with files := (Layout.attempt s.files output ⟨item.module, item.goFile⟩
          content).2 }.say lines) := by
  rw [run_put, Layout.attempt]
  obtain ⟨result, g⟩ := Layout.write s.files output ⟨item.module, item.goFile⟩ content
  cases result with
  | ok written => exact ⟨[], by rw [Shared.say, List.append_nil]; rfl⟩
  | error e => exact ⟨[.error e.message], rfl⟩

/-- A translation that is only put into its file if the file does not hold it. -/
theorem item_writeItem (hnamed : Layout.Named ⟨item.module, item.goFile⟩) (files : Files) :
    SameFile (attempted output item
        (Layout.attempt files output ⟨item.module, item.goFile⟩ content).1)
      (writeItem output item content files).1 := by
  have hchanged := Layout.write_eq_writeIfChanged hnamed.module hnamed.fileName files output content
  unfold writeItem Layout.attempt
  dsimp only
  by_cases hcached : item.cached = true
  · rw [if_pos hcached, hchanged]
    obtain ⟨result, g⟩ :=
      Layout.writeIfChanged files output ⟨item.module, item.goFile⟩ content
    cases result with
    | ok rewritten => exact ⟨rewritten, item.failure, rfl, rfl⟩
    | error e => exact .refl _
  · rw [if_neg hcached]
    obtain ⟨result, g⟩ := Layout.write files output ⟨item.module, item.goFile⟩ content
    cases result <;> exact .refl _

/-- What a translation becomes that is written, with nothing in between, in a state that is like
another one in which it is put into its file. -/
theorem run_write_alike (content : String) (hnamed : Layout.Named ⟨item.module, item.goFile⟩)
    (hmodule : ¬IndexPlace [item.module]) (hfile : ¬IndexPlace [item.module, item.goFile])
    {s s' : Shared σ} (hs : Alike output s s') :
    Alike output ((put output (fun _ => none) item content).run s).2
        ((write output (fun _ => none) item content).run s').2 ∧
      SameFile ((put output (fun _ => none) item content).run s).1
        ((write output (fun _ => none) item content).run s').1 := by
  obtain ⟨lines, hput⟩ := run_put_eq output item content s
  obtain ⟨hbeside, hfault⟩ := Layout.attempt_beside hs.files hnamed hmodule hfile content
  rw [hput, run_write, files_writeItem_eq hnamed]
  exact ⟨⟨hs.cache, hbeside, hs.stored.mono (Layout.writes_attempt ..),
    hs.stored'.mono (Layout.writes_attempt ..), hs.filed, hs.filed'⟩,
    (SameFile.attempted hfault).trans (item_writeItem hnamed s'.files)⟩

/-- A translation is written in answer to one that is put into its file. -/
theorem matches_put (hnamed : Layout.Named ⟨item.module, item.goFile⟩)
    (hmodule : ¬IndexPlace [item.module]) (hfile : ¬IndexPlace [item.module, item.goFile]) :
    Matches output SameFile (put output (fun _ => none) item content : Task (Shared σ) Item)
      (write output (fun _ => none) item content) :=
  .at_once fun _ _ => run_write_alike content hnamed hmodule hfile

/-- A file that holds its translation in one state may have to be written in the other one. -/
theorem matches_write (hnamed : Layout.Named ⟨item.module, item.goFile⟩)
    (hmodule : ¬IndexPlace [item.module]) (hfile : ¬IndexPlace [item.module, item.goFile]) :
    Matches output SameFile (write output (fun _ => none) item content : Task (Shared σ) Item)
      (write output (fun _ => none) item content) := by
  have hput : Matches output SameFile (put output (fun _ => none) item content : Task (Shared σ) Item)
      (write output (fun _ => none) item content) := matches_put hnamed hmodule hfile
  nth_rewrite 1 [write]
  split
  · intro s s' hs
    cases hholds : Layout.holds s.files (Layout.targetPath output ⟨item.module, item.goFile⟩) content with
    | false =>
      -- Nothing has to be done before the file is written here, too.
      refine ⟨_, s', .refl _ _, hs, ?_⟩
      dsimp only
      rw [hholds]
      exact hput
    | true =>
      have hwrite : Layout.write s.files output ⟨item.module, item.goFile⟩ content =
          (.ok (), s.files) := by
        rw [Layout.write_eq_writeIfChanged hnamed.module hnamed.fileName, Layout.writeIfChanged,
          if_pos hholds]
        rfl
      obtain ⟨halike, rewritten, failure, hfailure, hsame⟩ :=
        run_write_alike content hnamed hmodule hfile hs
      rw [run_put, hwrite] at halike hsame
      rw [run_put, hwrite] at hfailure
      refine ⟨_, _, .to_done _ s', halike, ?_⟩
      dsimp only
      rw [hholds]
      exact ⟨_, rfl, rewritten, failure, hfailure, hsame⟩
  · exact hput

variable (t : Translator σ) (other : Meaning.Index)

theorem matches_finish (hgoes : ∀ u, (t.service.cancelled u).1 = false)
    (hnamed : Layout.Named ⟨item.module, item.goFile⟩) (hmodule : ¬IndexPlace [item.module])
    (hfile : ¬IndexPlace [item.module, item.goFile]) :
    Matches output SameFile (finish t output (fun _ => none) item)
      (finish { t with index := other } output (fun _ => none) item) := by
  unfold finish
  split
  · exact .pure (.refl item)
  · next content _ =>
    have hgoing : Matches output (fun cancelled cancelled' => cancelled = false ∧ cancelled' = false)
        (Task.act (isCancelled t)) (Task.act (isCancelled { t with index := other })) :=
      .act fun s s' hs => ⟨hs.congr hs.cache rfl rfl rfl rfl rfl, hgoes _, hgoes _⟩
    refine hgoing.bind ?_
    rintro _ _ ⟨rfl, rfl⟩
    exact matches_write hnamed hmodule hfile

/-- A file is translated and written in the same way whatever the index knows. -/
theorem matches_process (hservice : t.service.IgnoresRelated)
    (hgoes : ∀ u, (t.service.cancelled u).1 = false) {a : Analyzed}
    (hnamed : Layout.Named a.placement) (hmodule : ¬IndexPlace [a.placement.module])
    (hfile : ¬IndexPlace [a.placement.module, a.placement.fileName]) :
    Matches output SameFile (process t output (fun _ => none) a)
      (process { t with index := other } output (fun _ => none) a) := by
  unfold process
  cases a.outline with
  | error reason =>
    exact .act fun s s' hs => ⟨hs.congr hs.cache rfl rfl rfl rfl rfl, .refl _⟩
  | ok outline =>
    dsimp only
    have hlent : Matches output (fun job job' : Job σ => SameAt a.placement job.item job'.item)
        (Task.act fun s : Shared σ => (⟨Item.start a.file (some outline) a.placement.module
          a.placement.fileName, s.cache, s.files, s.outside, []⟩, s))
        (Task.act fun s : Shared σ => (⟨Item.start a.file (some outline) a.placement.module
          a.placement.fileName, s.cache, s.files, s.outside, []⟩, s)) :=
      .act fun s s' hs => ⟨hs, rfl, rfl⟩
    refine hlent.bind fun job job' hitem => ?_
    refine (matches_convert t other hservice hgoes hitem).bind ?_
    rintro ⟨done, job⟩ ⟨done', job'⟩ ⟨hdone, hitem⟩
    dsimp only at hdone hitem
    subst hdone
    have hsaid : Matches output (fun _ _ => True)
        (Task.act fun s : Shared σ => ((), s.say job.log))
        (Task.act fun s : Shared σ => ((), s.say job'.log)) :=
      .act fun s s' hs => ⟨hs.congr hs.cache rfl rfl rfl rfl rfl, trivial⟩
    refine hsaid.bind fun _ _ _ => ?_
    rw [hitem.eq]
    have hplace := hitem.place
    cases done' with
    | true =>
      have hnamed : Layout.Named ⟨job.item.module, job.item.goFile⟩ := hplace ▸ hnamed
      rw [← hplace] at hmodule hfile
      exact matches_finish t other hgoes hnamed hmodule hfile
    | false => exact .pure (.refl job.item)

end Second

end Work

end Run

end Recast
