/-
  Proofs/Run/Settling.lean --- how the work on a file ends while others are worked on.

  A worker writes to the place of its own Go file and to entries of the cache, and needs nothing but
  that the others leave its Go file alone (`Relies`, `Guarantees`).  Whatever they do to the rest, a
  file ends in one of the ways that a report tells apart (`Ended`), and what was written is there as
  it was written (`Work.settles_process`).
-/
import Recast.Proofs.Run.Writing
import Recast.Proofs.Task
import Recast.Run.Workers

set_option autoImplicit false

namespace Recast

namespace Run

open Conversion (Item Job Stage Translator)

variable {σ : Type}

/-! ## What workers do to the files -/

/-- What the work on a file with a target leaves to others: everything but the target. -/
def Relies (target : Path) (s s' : Shared σ) : Prop :=
  s.files.Writes (fun place => place ≠ s.files.placeOf target) s'.files

/-- What the work on a file with a target changes: the target and entries of the cache. -/
def Guarantees (target : Path) (s s' : Shared σ) : Prop :=
  s.files.Writes (fun place => place = s.files.placeOf target ∨ ¬Cache.Outside place) s'.files

theorem steady_relies (target : Path) : Task.Steady (Relies target : Shared σ → Shared σ → Prop) where
  refl s := .refl _ _
  trans h h' := by
    refine h.trans (h'.mono fun place hplace => ?_)
    rwa [h.placeOf] at hplace

/-- Work whose result is as it should be at any time, and which only does what is guaranteed. -/
def Safe {α : Type} (target : Path) (task : Task (Shared σ) α) (post : α → Prop) : Prop :=
  ∀ s, task.Within (Relies target) (Guarantees target) (fun a _ => post a) s

namespace Safe

variable {α β : Type} {target : Path} {post : α → Prop}

theorem pure {a : α} (h : post a) : Safe target (Pure.pure a : Task (Shared σ) α) post :=
  fun _ => .pure fun _ _ => h

theorem mono {task : Task (Shared σ) α} {more : α → Prop} (h : Safe target task post)
    (hmore : ∀ a, post a → more a) : Safe target task more :=
  fun s => (h s).mono fun a _ => hmore a

theorem bind {task : Task (Shared σ) α} {more : α → Task (Shared σ) β} {last : β → Prop}
    (h : Safe target task post) (hmore : ∀ a, post a → Safe target (more a) last) :
    Safe target (task >>= more) last :=
  fun s => (h s).bind (steady_relies target) fun a s' ha => hmore a ha s'

/-- A step of a job that leaves the files alone. -/
theorem onJob {f : Job σ → β × Job σ} {job : Job σ} {last : β × Job σ → Prop}
    (h : ∀ cache files outside, (f { job with cache, files, outside }).2.files = files ∧
      last (f { job with cache, files, outside })) : Safe target (Run.onJob f job) last := by
  intro s
  refine .act fun s' _ => ?_
  obtain ⟨hfiles, hlast⟩ := h s'.cache s'.files s'.outside
  refine ⟨?_, fun _ _ => hlast⟩
  change s'.files.Writes _ (f _).2.files
  rw [show (f (s'.lend job)).2.files = s'.files from hfiles]
  exact .refl _ _

end Safe

/-! ## What becomes of a file -/

/-- A file that went on with nothing finished. -/
def Carries (item later : Item) : Prop :=
  ∃ attempts failures stages, later = { item with attempts, failures, later := stages }

/-- A file whose translation is ready. -/
def Ready (item later : Item) : Prop :=
  ∃ attempts failures stages output cached fallback, later =
    { item with attempts, failures, later := .done :: stages, output := some output, cached, fallback }

/-- A file that was given up. -/
def GivenUp (item later : Item) : Prop :=
  ∃ attempts failures stages, later = { item with
    attempts, failures, later := .cancelled :: stages, failure := some "conversion cancelled" }

theorem Carries.refl (item : Item) : Carries item item :=
  ⟨item.attempts, item.failures, item.later, rfl⟩

theorem Carries.of_eq {item later : Item} (h : later = item) : Carries item later := by
  rw [h]
  exact .refl item

theorem Carries.move {item later : Item} (h : Carries item later) (next : Stage) :
    Carries item (later.move next) := by
  obtain ⟨_, _, _, rfl⟩ := h
  exact ⟨_, _, _, rfl⟩

theorem Carries.trans {item later last : Item} (h : Carries item later) (h' : Carries later last) :
    Carries item last := by
  obtain ⟨_, _, _, rfl⟩ := h
  obtain ⟨_, _, _, rfl⟩ := h'
  exact ⟨_, _, _, rfl⟩

theorem Carries.ready {item later last : Item} (h : Carries item later) (h' : Ready later last) :
    Ready item last := by
  obtain ⟨_, _, _, rfl⟩ := h
  obtain ⟨_, _, _, _, _, _, rfl⟩ := h'
  exact ⟨_, _, _, _, _, _, rfl⟩

theorem Carries.givenUp {item later last : Item} (h : Carries item later) (h' : GivenUp later last) :
    GivenUp item last := by
  obtain ⟨_, _, _, rfl⟩ := h
  obtain ⟨_, _, _, rfl⟩ := h'
  exact ⟨_, _, _, rfl⟩

namespace Work

variable (t : Translator σ) {target : Path}

theorem safe_requestWhole (prompt : Prompt) (job : Job σ) :
    Safe target (requestWhole t prompt job) fun r => Carries job.item r.2.item := by
  have hasked : Safe target (onJob (complete t prompt) job) fun r => r.2.item = job.item :=
    .onJob fun _ _ _ => ⟨rfl, rfl⟩
  refine hasked.bind ?_
  rintro ⟨answer, asked⟩ hitem
  have hcarries : Carries job.item asked.item := .of_eq hitem
  cases answer with
  | ok text => exact .pure ((hcarries.move .complete).move .extracted)
  | error e => exact .pure hcarries

theorem safe_readStream (chunks : List Chunk) (job : Job σ) :
    Safe target (readStream t chunks job) fun r => Carries job.item r.2.item := by
  unfold readStream
  generalize Reply.ofChunks t.settings.earlyStop chunks = reply
  obtain ⟨read, result⟩ := reply
  have htold : Safe target (onJob (taken t read) (job.move .streaming)) fun r =>
      r.2.item = job.item.move .streaming :=
    .onJob fun _ _ _ => ⟨rfl, rfl⟩
  refine htold.bind ?_
  rintro ⟨_, told⟩ hitem
  have hcarries : Carries job.item told.item := by
    rw [hitem]
    exact (Carries.refl job.item).move .streaming
  cases result with
  | ok extraction => exact .pure (hcarries.move .extracted)
  | error e => exact .pure hcarries

theorem safe_request (prompt : Prompt) (job : Job σ) :
    Safe target (request t prompt job) fun r => Carries job.item r.2.item := by
  unfold request
  split
  · have hasked : Safe target (onJob (stream t prompt) job) fun r => r.2.item = job.item :=
      .onJob fun _ _ _ => ⟨rfl, rfl⟩
    refine hasked.bind ?_
    rintro ⟨answer, asked⟩ hitem
    rw [← hitem]
    cases answer with
    | ok chunks => exact safe_readStream t chunks asked
    | error e =>
      cases e with
      | streamingUnsupported => exact safe_requestWhole t prompt asked
      | timeout | cancelled | service | malformed => exact .pure (.refl _)
  · exact safe_requestWhole t prompt job

/-- Storing an entry only writes to the place of an entry. -/
theorem writes_keep (c : Cache) (files : Files) (path : Path) (entry : Cache.Entry) :
    files.Writes (fun place => ¬Cache.Outside place) (c.keep files path entry).2.1 := by
  unfold Cache.keep
  split
  · exact .refl _ _
  · next store hstore =>
    split
    · next stored g hset =>
      obtain ⟨name, medium, refused⟩ := store
      have hput := Cache.Store.put_of_set hset
      cases medium with
      | memory values =>
        cases hput
        exact .refl _ _
      | directory directory =>
        obtain ⟨-, -, hreplace⟩ := Cache.Store.put_directory.1 hput
        refine (Files.writes_replace hreplace).mono fun place hplace houtside => ?_
        refine houtside (files.placeOf directory) (Cache.entryKey path) (hplace.trans ?_)
        exact Files.placeOf_join files directory (Cache.isName_keyName _)
    · exact .refl _ _

theorem safe_keepEntry (entry : Cache.Entry) (job : Job σ) :
    Safe target (onJob (keepEntry entry) job) fun r => r.2.item = job.item := by
  intro s
  refine .act fun s' _ => ⟨?_, fun _ _ => rfl⟩
  exact (writes_keep s'.cache s'.files job.path entry).mono fun _ hplace => .inr hplace

theorem safe_accept (code : String) (n : Nat) (job : Job σ) :
    Safe target (accept t code n job) fun accepted => Ready job.item accepted.item := by
  have hloaded : Safe target (onJob loadEntry (job.move .valid)) fun r =>
      r.2.item = job.item.move .valid :=
    .onJob fun _ _ _ => ⟨rfl, rfl⟩
  refine hloaded.bind ?_
  rintro ⟨⟨entry, now⟩, loaded⟩ hitem
  refine (safe_keepEntry _ loaded).bind ?_
  rintro ⟨_, kept⟩ hkept
  refine .pure ?_
  have hstored : kept.item = job.item.move .valid := hkept.trans hitem
  change Ready job.item ({ kept.item with output := some code }.move .done)
  rw [hstored]
  exact ⟨_, _, _, _, _, _, rfl⟩

/-- What an attempt leaves of a file. -/
def Attempted (item : Item) (r : Conversion.Attempt × Job σ) : Prop :=
  match r.1 with
  | .finished => Ready item r.2.item
  | .failed | .cancelled => Carries item r.2.item

theorem safe_judge (code : String) (n : Nat) (job : Job σ) :
    Safe target (judge t code n job) (Attempted job.item) := by
  unfold judge
  dsimp only
  split
  · refine (safe_accept t _ n (job.say _)).bind fun accepted haccepted => ?_
    exact .pure haccepted
  · exact .pure ⟨_, _, _, rfl⟩

theorem Attempted.of_carries {item later : Item} (h : Carries item later)
    {r : Conversion.Attempt × Job σ} (hr : Attempted later r) : Attempted item r := by
  obtain ⟨ending, job⟩ := r
  cases ending with
  | finished => exact h.ready hr
  | failed => exact h.trans hr
  | cancelled => exact h.trans hr

theorem safe_attempt (prompt : Prompt) (n : Nat) (job : Job σ) :
    Safe target (attempt t prompt n job) (Attempted job.item) := by
  have hsent : Carries job.item ({ job.item with attempts := n }.move .requestSent) :=
    ⟨_, _, _, rfl⟩
  refine (safe_request t prompt _).bind ?_
  rintro ⟨answer, asked⟩ hasked
  have hcarries : Carries job.item asked.item := hsent.trans hasked
  cases answer with
  | ok code => exact (safe_judge t code n asked).mono fun _ => .of_carries hcarries
  | error e =>
    have hfailed : Carries job.item ((asked.say [.warn (asked.path.text ++ ": attempt " ++
        toString n ++ " failed: " ++ e.message)]).fail n e.message).item :=
      hcarries.trans ⟨_, _, _, rfl⟩
    cases e with
    | cancelled => exact .pure hcarries
    | timeout | service | malformed | streamingUnsupported => exact .pure hfailed

/-- What a conversion leaves of a file. -/
def Converted (item : Item) (r : Bool × Job σ) : Prop :=
  if r.1 then Ready item r.2.item else GivenUp item r.2.item

theorem Converted.outline {item : Item} {r : Bool × Job σ} (h : Converted item r) :
    r.2.item.outline = item.outline := by
  obtain ⟨done, job⟩ := r
  cases done with
  | false =>
    obtain ⟨_, _, _, hitem⟩ := h
    rw [hitem]
  | true =>
    obtain ⟨_, _, _, _, _, _, hitem⟩ := h
    rw [hitem]

theorem Converted.of_carries {item later : Item} (h : Carries item later) {r : Bool × Job σ}
    (hr : Converted later r) : Converted item r := by
  obtain ⟨done, job⟩ := r
  cases done with
  | true => exact h.ready hr
  | false => exact h.givenUp hr

theorem safe_attempts (prompt : Prompt) (left n : Nat) (job : Job σ) :
    Safe target (attempts t prompt left n job) (Converted job.item) := by
  induction left generalizing n job with
  | zero => exact .pure ⟨_, _, _, _, _, _, rfl⟩
  | succ left ih =>
    have hasked : Safe target (onJob t.isCancelled job) fun r => r.2.item = job.item :=
      .onJob fun _ _ _ => ⟨rfl, rfl⟩
    refine hasked.bind ?_
    rintro ⟨cancelled, asked⟩ hitem
    have hcarries : Carries job.item asked.item := .of_eq hitem
    cases cancelled with
    | true => exact .pure (Converted.of_carries hcarries ⟨_, _, _, rfl⟩)
    | false =>
      refine (safe_attempt t prompt n asked).bind ?_
      rintro ⟨ending, last⟩ hlast
      cases ending with
      | finished => exact .pure (hcarries.ready hlast)
      | cancelled => exact .pure (hcarries.trans hlast |>.givenUp ⟨_, _, _, rfl⟩)
      | failed =>
        refine (ih (n + 1) _).mono fun r => .of_carries ((hcarries.trans hlast).trans ?_)
        split
        · exact .refl _
        · exact (Carries.refl _).move .retry

theorem safe_convert (job : Job σ) : Safe target (convert t job) (Converted job.item) := by
  have hasked : Safe target (onJob t.isCancelled job) fun r => r.2.item = job.item :=
    .onJob fun _ _ _ => ⟨rfl, rfl⟩
  refine hasked.bind ?_
  rintro ⟨cancelled, asked⟩ hitem
  have hcarries : Carries job.item asked.item := .of_eq hitem
  cases cancelled with
  | true => exact .pure (Converted.of_carries hcarries ⟨_, _, _, rfl⟩)
  | false =>
    have hlooked : Safe target (onJob lookUp (asked.move .cacheCheck)) fun r =>
        r.2.item = asked.item.move .cacheCheck :=
      .onJob fun _ _ _ => ⟨rfl, rfl⟩
    refine hlooked.bind ?_
    rintro ⟨hit, looked⟩ hlookedItem
    have hcarries : Carries job.item looked.item := by
      rw [hlookedItem]
      exact hcarries.move .cacheCheck
    cases hit with
    | some hit => exact .pure (Converted.of_carries hcarries ⟨_, _, _, _, _, _, rfl⟩)
    | none =>
      refine (safe_attempts t _ _ 1 _).mono fun r => .of_carries ?_
      exact (hcarries.move .cacheMiss).move .contextBuild

end Work

/-! ## How a file ends -/

/-- The ways in which a file ends. -/
inductive Ended (item : Item) : Prop
  | unparsed (outline : item.outline = none) (stage : item.stage = .pending)
      (failure : item.failure ≠ none) (target : item.target = none)
  | cancelled (outline : item.outline ≠ none) (stopped : item.stage = .cancelled ∨ item.unwritten)
      (failure : item.failure ≠ none) (target : item.target = none)
  | failed (outline : item.outline ≠ none) (stage : item.stage = .done)
      (unwritten : item.unwritten = false) (failure : item.failure ≠ none)
      (target : item.target = none)
  | written (outline : item.outline ≠ none) (stage : item.stage = .done)
      (unwritten : item.unwritten = false) (failure : item.failure = none)
      (target : item.target ≠ none) (output : item.output ≠ none)

/-- The end of the work on a file: if a translation was written, its file holds it. -/
structure Settled (output : Path) (a : Analyzed) (item : Item) (s : Shared σ) : Prop where
  source : item.source = a.file
  unjudged : item.validation = none
  ended : Ended item
  target : ∀ path, item.target = some path → path = Layout.targetPath output a.placement ∧
    ∃ content, item.output = some content ∧ s.files.read path = .ok content.toUTF8

/-- A file that the others leave alone stays as it is. -/
theorem read_of_relies {target : Path} {s s' : Shared σ} {content : ByteArray}
    (h : Relies target s s') (hread : s.files.read target = .ok content) :
    s'.files.read target = .ok content :=
  Files.Writes.read h hread fun hne => hne rfl

/-- A file whose translation is ready to be written. -/
structure Translated (a : Analyzed) (item : Item) : Prop where
  source : item.source = a.file
  place : Layout.Placement.mk item.module item.goFile = a.placement
  outline : item.outline ≠ none
  stage : item.stage = .done
  unwritten : item.unwritten = false
  failure : item.failure = none
  target : item.target = none
  unjudged : item.validation = none

/-- A translation that was written settles a file. -/
theorem Translated.written {output : Path} {a : Analyzed} {item : Item} {content : String}
    {s : Shared σ} (h : Translated a item) (hcontent : item.output = some content)
    (hread : s.files.read (Layout.targetPath output a.placement) = .ok content.toUTF8)
    (rewritten : Bool) :
    Settled output a
      { item with target := some (Layout.targetPath output a.placement), rewritten } s := by
  refine ⟨h.source, h.unjudged, ?_, ?_⟩
  · refine .written h.outline h.stage h.unwritten h.failure (Option.some_ne_none _) ?_
    change item.output ≠ none
    rw [hcontent]
    exact Option.some_ne_none _
  · rintro path ⟨rfl⟩
    exact ⟨rfl, content, hcontent, hread⟩

/-- So does one that could not be written. -/
theorem Translated.failed {a : Analyzed} {item : Item} (h : Translated a item) (output : Path)
    (reason : String) (s : Shared σ) :
    Settled output a { item with failure := some reason } s := by
  refine ⟨h.source, h.unjudged, ?_, ?_⟩
  · exact .failed h.outline h.stage h.unwritten (Option.some_ne_none _) h.target
  · intro path hpath
    cases h.target.symm.trans hpath

namespace Work

variable (t : Translator σ) (output : Path) (refuses : Layout.Placement → Option Layout.WriteError)
  {a : Analyzed}

/-- Work after which a file is settled. -/
def Settles (a : Analyzed) (task : Task (Shared σ) Item) : Prop :=
  ∀ s, task.Within (Relies (Layout.targetPath output a.placement))
    (Guarantees (Layout.targetPath output a.placement)) (Settled output a) s

theorem settles_put {item : Item} {content : String} (h : Translated a item)
    (hcontent : item.output = some content) :
    Settles output a (put output refuses item content : Task (Shared σ) Item) := by
  intro s
  refine .act fun s' _ => ?_
  rw [h.place]
  dsimp only
  cases refuses a.placement with
  | some e => exact ⟨.refl _ _, fun u _ => h.failed output _ u⟩
  | none =>
    dsimp only
    have hwrites := Layout.writes_write s'.files output a.placement content
    cases hwritten : Layout.write s'.files output a.placement content with
    | mk written files =>
      rw [hwritten] at hwrites
      cases written with
      | error e => exact ⟨hwrites.mono fun _ => .inl, fun u _ => h.failed output _ u⟩
      | ok made =>
        have hread := Layout.read_of_write (congrArg Prod.fst hwritten)
        rw [hwritten] at hread
        exact ⟨hwrites.mono fun _ => .inl,
          fun u hu => h.written hcontent (read_of_relies hu hread) true⟩

theorem settles_write {item : Item} {content : String} (h : Translated a item)
    (hcontent : item.output = some content) :
    Settles output a (write output refuses item content : Task (Shared σ) Item) := by
  intro s
  unfold write
  rw [h.place]
  dsimp only
  split
  · have hheld : (Task.act fun s : Shared σ =>
        (Layout.holds s.files (Layout.targetPath output a.placement) content, s)).Within
        (Relies (Layout.targetPath output a.placement))
        (Guarantees (Layout.targetPath output a.placement))
        (fun held s' => held = true →
          s'.files.read (Layout.targetPath output a.placement) = .ok content.toUTF8) s := by
      refine .act fun s' _ => ⟨.refl _ _, fun u hu hholds => ?_⟩
      exact read_of_relies hu (Layout.holds_eq_true.1 hholds)
    refine hheld.bind (steady_relies _) fun held s' hread => ?_
    split
    · next hholds =>
      refine .pure fun u hu => ?_
      exact h.written hcontent (read_of_relies hu (hread hholds)) false
    · exact settles_put output refuses h hcontent s'
  · exact settles_put output refuses h hcontent s

theorem settles_finish {item : Item} {content : String} (h : Translated a item)
    (hcontent : item.output = some content) :
    Settles output a (finish t output refuses item) := by
  intro s
  unfold finish
  rw [hcontent]
  have hasked : Safe (Layout.targetPath output a.placement) (Task.act (isCancelled t))
      fun _ => True :=
    fun s => .act fun s' _ => ⟨.refl _ _, fun _ _ => trivial⟩
  refine (hasked s).bind (steady_relies _) fun cancelled s' _ => ?_
  split
  · refine .pure fun u _ => ⟨h.source, h.unjudged, ?_, fun path hpath => ?_⟩
    · exact .cancelled h.outline (.inr rfl) (Option.some_ne_none _) h.target
    · cases h.target.symm.trans hpath
  · exact settles_write output refuses h hcontent s'

/-- The work on a file settles it. -/
theorem settles_process (a : Analyzed) : Settles output a (process t output refuses a) := by
  intro s
  unfold process
  cases a.outline with
  | error reason =>
    refine .act fun s' _ => ⟨.refl _ _, fun u _ => ⟨rfl, rfl, ?_, nofun⟩⟩
    exact .unparsed rfl rfl (Option.some_ne_none _) rfl
  | ok outline =>
    dsimp only
    have hstarted : Safe (Layout.targetPath output a.placement) (Task.act fun s : Shared σ =>
        (({ item := .start a.file (some outline) a.placement.module a.placement.fileName
            cache := s.cache, files := s.files, outside := s.outside } : Job σ), s))
        fun job => job.item =
          .start a.file (some outline) a.placement.module a.placement.fileName :=
      fun s => .act fun s' _ => ⟨.refl _ _, fun _ _ => rfl⟩
    refine (hstarted s).bind (steady_relies _) fun job s' hitem => ?_
    refine ((safe_convert t job) s').bind (steady_relies _) ?_
    rintro ⟨done, last⟩ s' hconverted
    rw [hitem] at hconverted
    have hsaid : Safe (Layout.targetPath output a.placement)
        (Task.act fun s : Shared σ => ((), s.say last.log)) fun _ => True :=
      fun s => .act fun s' _ => ⟨.refl _ _, fun _ _ => trivial⟩
    refine (hsaid s').bind (steady_relies _) fun _ s' _ => ?_
    cases done with
    | true =>
      obtain ⟨_, _, _, content, _, _, hlast⟩ := hconverted
      dsimp only at hlast ⊢
      have hcontent : last.item.output = some content := by rw [hlast]
      have htranslated : Translated a last.item := by
        rw [hlast]
        exact ⟨rfl, rfl, Option.some_ne_none _, rfl, rfl, rfl, rfl, rfl⟩
      exact settles_finish t output refuses htranslated hcontent s'
    | false =>
      obtain ⟨_, _, _, hlast⟩ := hconverted
      dsimp only at hlast ⊢
      rw [hlast]
      refine .pure fun u _ => ⟨rfl, rfl, ?_, nofun⟩
      exact .cancelled (Option.some_ne_none _) (.inl rfl) (Option.some_ne_none _) rfl

end Work

end Run

end Recast
