/-
  Proofs/Run/Reusing.lean --- translations that are stored by one run and found by the next one.

  While other files are worked on, the second pass either takes the translation of a file from its
  entry or asks for one, and a new translation is stored beside the outline of the file before the
  file is done (`Work.translates_process`).  A file whose translation is found and whose Go file holds
  it is done without a change of anything (`Work.watches_process`).
-/
import Recast.Proofs.Conversion.Requests
import Recast.Proofs.Conversion.Validity
import Recast.Proofs.Run.Keeping

set_option autoImplicit false

namespace Recast.Run

open Conversion (Item Job Translator)

variable {σ : Type}

/-! ## Requests -/

namespace Work

section Request

variable (t : Translator σ)

theorem plain_requestWhole (prompt : Prompt) (job : Job σ) :
    Plain (requestWhole t prompt job) fun r => Carries job.item r.2.item := by
  have hasked : Plain (onJob (complete t prompt) job) fun r => r.2.item = job.item :=
    .onJob fun _ _ _ => ⟨rfl, rfl, rfl, rfl⟩
  refine hasked.bind ?_
  rintro ⟨answer, asked⟩ hitem
  have hcarries : Carries job.item asked.item := .of_eq hitem
  cases answer with
  | ok text => exact .pure ((hcarries.move .complete).move .extracted)
  | error e => exact .pure hcarries

theorem plain_readStream (chunks : List Chunk) (job : Job σ) :
    Plain (readStream t chunks job) fun r => Carries job.item r.2.item := by
  unfold readStream
  generalize Reply.ofChunks t.settings.earlyStop chunks = reply
  obtain ⟨read, result⟩ := reply
  have htold : Plain (onJob (taken t read) (job.move .streaming)) fun r =>
      r.2.item = job.item.move .streaming :=
    .onJob fun _ _ _ => ⟨rfl, rfl, rfl, rfl⟩
  refine htold.bind ?_
  rintro ⟨_, told⟩ hitem
  have hcarries : Carries job.item told.item := by
    rw [hitem]
    exact (Carries.refl job.item).move .streaming
  cases result with
  | ok extraction => exact .pure (hcarries.move .extracted)
  | error e => exact .pure hcarries

theorem plain_request (prompt : Prompt) (job : Job σ) :
    Plain (request t prompt job) fun r => Carries job.item r.2.item := by
  unfold request
  split
  · have hasked : Plain (onJob (stream t prompt) job) fun r => r.2.item = job.item :=
      .onJob fun _ _ _ => ⟨rfl, rfl, rfl, rfl⟩
    refine hasked.bind ?_
    rintro ⟨answer, asked⟩ hitem
    rw [← hitem]
    cases answer with
    | ok chunks => exact plain_readStream t chunks asked
    | error e =>
      cases e with
      | streamingUnsupported => exact plain_requestWhole t prompt asked
      | timeout | cancelled | service | malformed => exact .pure (.refl _)
  · exact plain_requestWhole t prompt job

theorem plain_isCancelled (job : Job σ) :
    Plain (onJob t.isCancelled job) fun r => r.2.item = job.item :=
  .onJob fun _ _ _ => ⟨rfl, rfl, rfl, rfl⟩

end Request

/-- The job of a file begins with what the file is. -/
theorem plain_lend (item : Item) :
    Plain (Task.act fun s : Shared σ =>
      (({ item, cache := s.cache, files := s.files, outside := s.outside } : Job σ), s))
      fun job => job.item = item :=
  .act fun _ => ⟨⟨rfl, rfl, rfl⟩, rfl⟩

theorem plain_say (lines : Log) :
    Plain (Task.act fun s : Shared σ => ((), s.say lines)) fun _ => True :=
  .act fun _ => ⟨⟨rfl, rfl, rfl⟩, trivial⟩

end Work

/-! ## Translations in the cache -/

/-- The places that the work on a file writes to: that of its entry and that of its Go file. -/
def Own (place : List RawText) (a : Analyzed) (q : List RawText) : Prop :=
  q = entryPlace place a.file.path ∨
    q = place ++ [(a.placement.module : RawText), a.placement.fileName]

/-- Work on a file that writes to its own places, while others leave them alone. -/
abbrev Translates {α : Type} (output : Path) (place : List RawText) (a : Analyzed)
    (task : Task (Shared σ) α) (post : α → Shared σ → Prop) (s : Shared σ) : Prop :=
  task.Within (Acts output place fun q => ¬Own place a q) (Acts output place (Own place a)) post s

/-- Work on a file that writes nothing, while others leave its places alone. -/
abbrev Watches {α : Type} (output : Path) (place : List RawText) (a : Analyzed)
    (task : Task (Shared σ) α) (post : α → Shared σ → Prop) (s : Shared σ) : Prop :=
  task.Within (Acts output place fun q => ¬Own place a q) (Acts output place fun _ => False) post s

/-- All that happens meanwhile is what others do. -/
theorem Watches.translates {α : Type} {output : Path} {place : List RawText} {a : Analyzed}
    {task : Task (Shared σ) α} {post : α → Shared σ → Prop} {s : Shared σ}
    (h : Watches output place a task post s) :
    Translates output place a task
      (fun result s' => post result s' ∧ Acts output place (fun q => ¬Own place a q) s s') s :=
  (Task.Within.left steady_acts h fun _ _ hstep => hstep.mono fun _ => False.elim).weaken
    (fun _ _ => id) fun _ _ hstep => hstep.mono fun _ => False.elim

/-- The cache has a translation of a file, which reads like a text once it is given the package of
the file. -/
def Stocked (output : Path) (place : List RawText) (file : SourceFile) (module content : String)
    (s : Shared σ) : Prop :=
  ∃ bytes e translation, Retains output place file bytes e s ∧ e.translation = some translation ∧
    Go.retargetString translation.output module = content

section Stocked

variable {output : Path} {place : List RawText} {a : Analyzed} {bytes : ByteArray}
  {e : Cache.Entry} {s s' : Shared σ}

/-- Others leave what the cache knows about a file alone. -/
theorem Retains.of_others (h : Retains output place a.file bytes e s)
    (hacts : Acts output place (fun q => ¬Own place a q) s s') :
    Retains output place a.file bytes e s' :=
  h.of_acts hacts fun hnot => hnot (.inl rfl)

theorem Stocked.of_acts {file : SourceFile} {module content : String} {W : List RawText → Prop}
    (h : Stocked output place file module content s) (hacts : Acts output place W s s')
    (hw : ¬W (entryPlace place file.path)) : Stocked output place file module content s' := by
  obtain ⟨bytes, e, translation, hretains, htranslation⟩ := h
  exact ⟨bytes, e, translation, hretains.of_acts hacts hw, htranslation⟩

/-- A source file with a new translation, which the cache has, too. -/
def Delivered (output : Path) (place : List RawText) (file : SourceFile) (item later : Item)
    (s : Shared σ) : Prop :=
  ∃ attempts failures stages content, later =
      { item with attempts, failures, later := .done :: stages, output := some content } ∧
    Stocked output place file item.module content s

theorem Delivered.of_carries {file : SourceFile} {item later last : Item} (h : Carries item later)
    (h' : Delivered output place file later last s) : Delivered output place file item last s := by
  obtain ⟨_, _, _, rfl⟩ := h
  obtain ⟨_, _, _, content, rfl, hstocked⟩ := h'
  exact ⟨_, _, _, content, rfl, hstocked⟩

/-- What an attempt leaves of a file, and what the cache knows after it. -/
def Tried (output : Path) (place : List RawText) (file : SourceFile) (bytes : ByteArray)
    (e : Cache.Entry) (item : Item) (r : Conversion.Attempt × Job σ) (s : Shared σ) : Prop :=
  match r.1 with
  | .finished => Delivered output place file item r.2.item s
  | .failed | .cancelled => Carries item r.2.item ∧ Retains output place file bytes e s

theorem Tried.of_carries {file : SourceFile} {item later : Item} (h : Carries item later)
    {r : Conversion.Attempt × Job σ} (hr : Tried output place file bytes e later r s) :
    Tried output place file bytes e item r s := by
  obtain ⟨ending, job⟩ := r
  cases ending with
  | finished => exact Delivered.of_carries h hr
  | failed | cancelled => exact ⟨h.trans hr.1, hr.2⟩

/-- What a conversion leaves of a file whose entry is known: the translation is that of the entry, or
a skeleton, or a new one that the cache has, too. -/
structure Made (output : Path) (place : List RawText) (file : SourceFile) (attempts : Nat)
    (e : Cache.Entry) (item : Item) (r : Bool × Job σ) (s : Shared σ) : Prop where
  converted : Work.Converted item r
  missed : e.translation = none → r.2.item.cached = item.cached
  stored : r.1 = true → r.2.item.cached = false → r.2.item.fallback = false →
    0 < attempts ∧ Delivered output place file item r.2.item s

theorem Made.of_carries {file : SourceFile} {attempts : Nat} {item later : Item}
    (h : Carries item later) {r : Bool × Job σ}
    (hr : Made output place file attempts e later r s) :
    Made output place file attempts e item r s := by
  refine ⟨.of_carries h hr.converted, fun hnone => ?_, fun hdone hcached hfallback => ?_⟩
  · rw [hr.missed hnone]
    obtain ⟨_, _, _, rfl⟩ := h
    rfl
  · obtain ⟨hpos, hdelivered⟩ := hr.stored hdone hcached hfallback
    exact ⟨hpos, .of_carries h hdelivered⟩

end Stocked

namespace Work

section Conversion

variable (t : Translator σ) {output : Path} {place : List RawText} {a : Analyzed} {bytes : ByteArray}
  {e : Cache.Entry} {s : Shared σ}

/-- Code that is valid is stored beside the outline of its file. -/
theorem translates_accept (hretains : Retains output place a.file bytes e s) {code : String}
    {n : Nat} {job : Job σ} (hsource : job.item.source = a.file)
    (hagain : Go.retargetString code job.item.module = code) (hn : n ≤ t.settings.maxAttempts) :
    Translates output place a (accept t code n job)
      (fun accepted s' => Delivered output place a.file job.item accepted.item s') s := by
  have hloaded : Translates output place a (onJob loadEntry (job.move .valid))
      (fun r s' => r.1.1 = some e ∧ r.2.item = job.item.move .valid ∧
        Retains output place a.file bytes e s') s := by
    refine .act fun s' hs' => ?_
    have hpath : (s'.lend (job.move .valid)).path = a.file.path := congrArg SourceFile.path hsource
    have hcache := Cache.consulted_load s'.cache s'.files (s'.lend (job.move .valid)).path
    have hneutral : Neutral s' (s'.back (loadEntry (s'.lend (job.move .valid))).2) :=
      ⟨rfl, hcache.store, hcache.force⟩
    refine ⟨hneutral.acts, fun u hu => ⟨?_, rfl, hretains.of_others ?_⟩⟩
    · change (s'.cache.load s'.files (s'.lend (job.move .valid)).path).1 = some e
      rw [hpath]
      exact (hretains.of_others hs').remembers
    · exact steady_acts.trans (steady_acts.trans hs' hneutral.acts) hu
  refine hloaded.bind steady_acts ?_
  rintro ⟨⟨entry, now⟩, loaded⟩ s₁ ⟨hentry, hitem, hretains₁⟩
  dsimp only at hentry hitem
  subst hentry
  have hsource₁ : loaded.item.source = a.file := by
    rw [hitem]
    exact hsource
  have hkept : Translates output place a
      (onJob (keepEntry (entryWith t code n loaded.item (some e) now)) loaded)
      (fun r s' => r.2.item = job.item.move .valid ∧
        Stocked output place a.file job.item.module code s') s₁ := by
    refine .act fun s' hs' => ?_
    have hmatching : Cache.matching a.file.digest (some e) = some e := by
      rw [Cache.matching, Option.filter_some, if_pos (decide_eq_true hretains.digest)]
    have hfits (e' : Cache.Entry) (he' : some e = some e') : e'.Fits := by
      cases he'
      exact Cache.Entry.fits_of_decode? hretains.decoded
    obtain ⟨hacts, bytes', hstored⟩ := (hretains₁.of_others hs').holds.housed.retains_keep a.file
      hfits
      (.translation ⟨code, loaded.item.module, loaded.item.goFile, t.service.name, n, now⟩)
      (t.fits_maxAttempts hn) (by rw [hmatching]; exact hretains.outline)
      (t := s'.back (keepEntry (entryWith t code n loaded.item (some e) now) (s'.lend loaded)).2)
      (by rw [← hsource₁]; rfl) (by rw [← hsource₁]; rfl)
    exact ⟨hacts.mono fun q hq => .inl hq,
      fun u hu => ⟨hitem, bytes', _, _, hstored.of_others hu, rfl, hagain⟩⟩
  refine hkept.bind steady_acts ?_
  rintro ⟨_, kept⟩ s₂ ⟨hitem₂, hstocked⟩
  dsimp only at hitem₂
  refine .pure fun u hu => ?_
  change Delivered output place a.file job.item ({ kept.item with output := some code }.move .done) u
  rw [hitem₂]
  exact ⟨_, _, _, code, rfl, hstocked.of_acts hu fun hnot => hnot (.inl rfl)⟩

theorem translates_judge (hretains : Retains output place a.file bytes e s) (code : String)
    {n : Nat} {job : Job σ} (hsource : job.item.source = a.file)
    (hmodule : Layout.isPackageName job.item.module = true) (hn : n ≤ t.settings.maxAttempts) :
    Translates output place a (judge t code n job) (Tried output place a.file bytes e job.item) s := by
  unfold judge
  dsimp only
  split
  · have haccept : Translates output place a (accept t (Go.retargetString code job.item.module) n
        (job.say (t.validator.checkText (Go.retargetString code job.item.module)).2))
        (fun accepted s' => Delivered output place a.file job.item accepted.item s') s :=
      translates_accept t hretains hsource
        (Go.retargetString_retargetString (Go.isIdentifier_of_isPackageName hmodule).1.not_newline code
          job.item.module) hn
    refine haccept.bind steady_acts fun accepted s' hdelivered => ?_
    refine .pure fun u hu => ?_
    obtain ⟨attempts, failures, stages, content, hitem, hstocked⟩ := hdelivered
    exact ⟨attempts, failures, stages, content, hitem,
      hstocked.of_acts hu fun hnot => hnot (.inl rfl)⟩
  · exact .pure fun u hu => ⟨⟨_, _, _, rfl⟩, hretains.of_others hu⟩

theorem translates_attempt (hretains : Retains output place a.file bytes e s) (prompt : Prompt)
    {n : Nat} {job : Job σ} (hsource : job.item.source = a.file)
    (hmodule : Layout.isPackageName job.item.module = true) (hn : n ≤ t.settings.maxAttempts) :
    Translates output place a (attempt t prompt n job)
      (Tried output place a.file bytes e job.item) s := by
  have hsent : Carries job.item ({ job.item with attempts := n }.move .requestSent) :=
    ⟨_, _, _, rfl⟩
  refine ((plain_request t prompt _).within s).bind steady_acts ?_
  rintro ⟨answer, asked⟩ s₁ ⟨hasked, hs₁⟩
  have hcarries : Carries job.item asked.item := hsent.trans hasked
  have hretains₁ := hretains.of_others hs₁
  cases answer with
  | ok code =>
    have hsource₁ : asked.item.source = a.file := by
      obtain ⟨_, _, _, hitem⟩ := hcarries
      rw [hitem]
      exact hsource
    have hmodule₁ : Layout.isPackageName asked.item.module = true := by
      obtain ⟨_, _, _, hitem⟩ := hcarries
      rw [hitem]
      exact hmodule
    exact (translates_judge t hretains₁ code hsource₁ hmodule₁ hn).mono fun _ _ =>
      .of_carries hcarries
  | error e' =>
    have hfailed : Carries job.item ((asked.say [.warn (asked.path.text ++ ": attempt " ++
        toString n ++ " failed: " ++ e'.message)]).fail n e'.message).item :=
      hcarries.trans ⟨_, _, _, rfl⟩
    cases e' with
    | cancelled => exact .pure fun u hu => ⟨hcarries, hretains₁.of_others hu⟩
    | timeout | service | malformed | streamingUnsupported =>
      exact .pure fun u hu => ⟨hfailed, hretains₁.of_others hu⟩

theorem translates_attempts (prompt : Prompt) {left n : Nat}
    (hn : n + left ≤ t.settings.maxAttempts + 1) (hpos : 1 ≤ n) {job : Job σ}
    (hretains : Retains output place a.file bytes e s) (hsource : job.item.source = a.file)
    (hmodule : Layout.isPackageName job.item.module = true) :
    Translates output place a (attempts t prompt left n job)
      (Made output place a.file t.settings.maxAttempts e job.item) s := by
  induction left generalizing n job s with
  | zero => exact .pure fun u _ => ⟨⟨_, _, _, _, _, _, rfl⟩, fun _ => rfl, fun _ _ hskeleton => nomatch hskeleton⟩
  | succ left ih =>
    have hcancelled {last : Job σ} (hlast : Carries job.item last.item) (u : Shared σ) :
        Made output place a.file t.settings.maxAttempts e job.item (false, last.cancel) u := by
      refine ⟨hlast.givenUp ⟨_, _, _, rfl⟩, fun _ => ?_, nofun⟩
      obtain ⟨_, _, _, hitem⟩ := hlast
      change last.item.cached = job.item.cached
      rw [hitem]
    refine ((plain_isCancelled t job).within s).bind steady_acts ?_
    rintro ⟨cancelled, asked⟩ s₁ ⟨hitem, hs₁⟩
    dsimp only at hitem
    cases cancelled with
    | true => exact .pure fun u _ => hcancelled (.of_eq hitem) u
    | false =>
      have hretains₁ := hretains.of_others hs₁
      refine (translates_attempt t hretains₁ prompt (by rw [hitem]; exact hsource)
        (by rw [hitem]; exact hmodule) (by omega)).bind steady_acts ?_
      rintro ⟨ending, tried⟩ s₂ htried
      rw [hitem] at htried
      cases ending with
      | finished =>
        refine .pure fun u hu => ?_
        obtain ⟨attempts, failures, stages, content, hlast, hstocked⟩ := htried
        dsimp only at hlast
        refine ⟨⟨_, _, _, _, _, _, hlast⟩, fun _ => ?_, fun _ _ _ => ⟨by omega, ?_⟩⟩
        · change tried.item.cached = job.item.cached
          rw [hlast]
        · exact ⟨attempts, failures, stages, content, hlast,
            hstocked.of_acts hu fun hnot => hnot (.inl rfl)⟩
      | cancelled => exact .pure fun u _ => hcancelled htried.1 u
      | failed =>
        obtain ⟨hcarries, hretains₂⟩ := htried
        have hagain : Carries job.item (if left = 0 then tried else tried.move .retry).item := by
          split
          · exact hcarries
          · exact hcarries.move .retry
        obtain ⟨attempts, failures, stages, hnext⟩ := hagain
        refine (ih (by omega) (by omega) hretains₂ ?_ ?_).mono fun r u =>
          .of_carries ⟨attempts, failures, stages, hnext⟩
        · rw [hnext]
          exact hsource
        · rw [hnext]
          exact hmodule

/-- A look-up finds the translation of the entry, if it is used at all. -/
theorem watches_lookUp (hretains : Retains output place a.file bytes e s) {job : Job σ}
    (hsource : job.item.source = a.file) :
    Watches output place a (onJob lookUp job)
      (fun r s' => r.1 = (if s.cache.force then none else e.translation) ∧ r.2.item = job.item ∧
        Acts output place (fun q => ¬Own place a q) s s') s := by
  refine .act fun s' hs' => ?_
  have hsource' : (s'.lend job).item.source = a.file := hsource
  have hcache := Cache.consulted_translation? s'.cache s'.files (s'.lend job).path
    (s'.lend job).item.source.digest
  have hneutral : Neutral s' (s'.back (lookUp (s'.lend job)).2) := ⟨rfl, hcache.store, hcache.force⟩
  refine ⟨hneutral.acts, fun u hu => ⟨?_, rfl,
    steady_acts.trans (steady_acts.trans hs' hneutral.acts) hu⟩⟩
  change (s'.cache.translation? s'.files (s'.lend job).path (s'.lend job).item.source.digest).1 = _
  rw [Conversion.Job.path, hsource', Cache.fst_translation?, (hretains.of_others hs').matching,
    (hs' hretains.holds.housed).2.1]
  rfl

theorem translates_convert {job : Job σ} (hretains : Retains output place a.file bytes e s)
    (hsource : job.item.source = a.file) (hmodule : Layout.isPackageName job.item.module = true) :
    Translates output place a (convert t job)
      (Made output place a.file t.settings.maxAttempts e job.item) s := by
  refine ((plain_isCancelled t job).within s).bind steady_acts ?_
  rintro ⟨cancelled, asked⟩ s₁ ⟨hitem, hs₁⟩
  dsimp only at hitem
  cases cancelled with
  | true =>
    refine .pure fun u _ => ⟨(Carries.of_eq hitem).givenUp ⟨_, _, _, rfl⟩, fun _ => ?_, nofun⟩
    change asked.item.cached = job.item.cached
    rw [hitem]
  | false =>
    have hchecked : (asked.move .cacheCheck).item.source = a.file := by
      rw [Job.item_move, hitem]
      exact hsource
    refine (watches_lookUp (hretains.of_others hs₁) hchecked).translates.bind steady_acts ?_
    rintro ⟨hit, looked⟩ s₂ ⟨⟨hfound, hlooked, -⟩, hs₂⟩
    dsimp only at hfound hlooked
    have hcarries : Carries job.item looked.item := by
      rw [hlooked, Job.item_move, hitem]
      exact (Carries.refl _).move .cacheCheck
    cases hit with
    | some hit =>
      refine .pure fun u _ => .of_carries hcarries
        ⟨⟨_, _, _, _, _, _, rfl⟩, fun hnone => ?_, fun _ hcached => nomatch hcached⟩
      rw [hnone, ite_self] at hfound
      cases hfound
    | none =>
      have hsource₂ : looked.item.source = a.file := by
        rw [hlooked]
        exact hchecked
      have hmodule₂ : Layout.isPackageName looked.item.module = true := by
        obtain ⟨_, _, _, hlast⟩ := hcarries
        rw [hlast]
        exact hmodule
      have hbuilt : Carries job.item ((looked.move .cacheMiss).move .contextBuild).item :=
        (hcarries.move .cacheMiss).move .contextBuild
      have hattempts (prompt : Prompt) (log : Log) : Translates output place a
          (attempts t prompt t.settings.maxAttempts 1
            (((looked.move .cacheMiss).move .contextBuild).say log))
          (Made output place a.file t.settings.maxAttempts e
            ((looked.move .cacheMiss).move .contextBuild).item) s₂ :=
        translates_attempts t prompt (Nat.le_of_eq (Nat.add_comm _ _)) (Nat.le_refl 1)
          ((hretains.of_others hs₁).of_others hs₂) hsource₂ hmodule₂
      exact (hattempts _ _).mono fun r u => .of_carries hbuilt

end Conversion

end Work

/-! ## Work on a file -/

/-- A translation was made, and not found or replaced by a skeleton. -/
theorem of_statusOf_translated {item : Item} (h : statusOf item = .translated) :
    item.target ≠ none ∧ item.cached = false ∧ item.fallback = false := by
  unfold statusOf at h
  split at h
  · cases h
  · split at h
    · cases h
    · split at h
      · cases h
      · next htarget =>
        split at h
        · cases h
        · next hcached =>
          split at h
          · cases h
          · next hfallback =>
            rw [Option.isNone_iff_eq_none] at htarget
            exact ⟨htarget, Bool.eq_false_iff.2 hcached, Bool.eq_false_iff.2 hfallback⟩

namespace Housed

variable {output : Path} {place : List RawText} {c : Cache} {f g : Files} {p : Layout.Placement}

/-- A Go file is written to its place at most, and the cache stays where it is. -/
theorem write (h : Housed output place c f) (hp : Proper p) (content : String) :
    Housed output place c (Layout.write f output p content).2 ∧
      f.Writes (· = place ++ [(p.module : RawText), p.fileName])
        (Layout.write f output p content).2 := by
  have hattempt := (h.attempt hp.module hp.file content).1
  rw [Layout.snd_attempt] at hattempt
  refine ⟨hattempt, (Layout.writes_write f output p content).mono fun q hq => ?_⟩
  rw [hq, hp.placeOf, h.placeOf]

end Housed

namespace Work

section Second

variable (t : Translator σ) {output : Path} (refuses : Layout.Placement → Option Layout.WriteError)
  {place : List RawText} {a : Analyzed} {bytes : ByteArray} {e : Cache.Entry} {s : Shared σ}

/-- Work that writes a Go file at most, and keeps the translation of a file. -/
def Puts (output : Path) (place : List RawText) (item : Item) (task : Task (Shared σ) Item) : Prop :=
  ∀ s, task.Within (fun _ _ => True)
    (Acts output place fun q => q = place ++ [(item.module : RawText), item.goFile])
    (fun later _ => later.cached = item.cached ∧ later.fallback = item.fallback ∧
      later.output = item.output ∧ later.outline = item.outline) s

theorem puts_put {item : Item} (hp : Proper ⟨item.module, item.goFile⟩) (content : String) :
    Puts output place item (put output refuses item content : Task (Shared σ) Item) := by
  intro s
  refine .act fun s' _ => ?_
  cases refuses ⟨item.module, item.goFile⟩ with
  | some e => exact ⟨Neutral.acts ⟨rfl, rfl, rfl⟩, fun _ _ => ⟨rfl, rfl, rfl, rfl⟩⟩
  | none =>
    have hacts : Acts output place (fun q => q = place ++ [(item.module : RawText), item.goFile]) s'
        { s' with files :=
            (Layout.write s'.files output ⟨item.module, item.goFile⟩ content).2 } := by
      intro hhoused
      obtain ⟨hhoused', hwrites⟩ := hhoused.write hp content
      exact ⟨hhoused', rfl, hwrites⟩
    dsimp only
    generalize Layout.write s'.files output ⟨item.module, item.goFile⟩ content = wrote at hacts ⊢
    obtain ⟨result, files⟩ := wrote
    cases result with
    | error e => exact ⟨hacts, fun _ _ => ⟨rfl, rfl, rfl, rfl⟩⟩
    | ok written => exact ⟨hacts, fun _ _ => ⟨rfl, rfl, rfl, rfl⟩⟩

theorem puts_finish {item : Item} (hp : Proper ⟨item.module, item.goFile⟩) :
    Puts output place item (finish t output refuses item) := by
  intro s
  unfold finish
  split
  · exact .pure fun _ _ => ⟨rfl, rfl, rfl, rfl⟩
  · next content _ =>
    have hneutral {α : Type} {task : Task (Shared σ) α} (h : Plain task fun _ => True)
        (s : Shared σ) : task.Within (fun _ _ => True)
          (Acts output place fun q => q = place ++ [(item.module : RawText), item.goFile])
          (fun _ _ => True) s :=
      (h s).weaken (fun _ _ => id) fun _ _ hstep => hstep.acts
    have hasked : Plain (Task.act (isCancelled t)) fun _ => True :=
      .act fun _ => ⟨⟨rfl, rfl, rfl⟩, trivial⟩
    refine (hneutral hasked s).bind steady_true fun cancelled s₁ _ => ?_
    split
    · exact .pure fun _ _ => ⟨rfl, rfl, rfl, rfl⟩
    · unfold write
      dsimp only
      split
      · have hheld : Plain (Task.act fun s : Shared σ => (Layout.holds s.files
            (Layout.targetPath output ⟨item.module, item.goFile⟩) content, s)) fun _ => True :=
          .act fun _ => ⟨⟨rfl, rfl, rfl⟩, trivial⟩
        refine (hneutral hheld s₁).bind steady_true fun held s₂ _ => ?_
        split
        · exact .pure fun _ _ => ⟨rfl, rfl, rfl, rfl⟩
        · exact puts_put refuses hp content s₂
      · exact puts_put refuses hp content s₁

/-- What the work on a file leaves of it, if its entry was known before: a translation is only taken
from there, and the cache has a new one. -/
structure Processed (output : Path) (place : List RawText) (a : Analyzed) (attempts : Nat)
    (e : Cache.Entry) (item : Item) (s : Shared σ) : Prop where
  parsed : item.outline ≠ none
  missed : e.translation = none → item.cached = false
  stored : statusOf item = .translated → 0 < attempts ∧ ∃ content, item.output = some content ∧
    Stocked output place a.file a.placement.module content s

theorem targetPlace_ne_entryPlace (path : Path) (names : List RawText) (hnames : names.length = 2) :
    place ++ names ≠ entryPlace place path := by
  intro heq
  rw [entryPlace, List.append_assoc] at heq
  have hlength := congrArg List.length (List.append_cancel_left heq)
  rw [hnames] at hlength
  cases hlength

/-- Writing the Go file of a file leaves its entry alone. -/
theorem translates_finish {item : Item} (hplace : (⟨item.module, item.goFile⟩ : Layout.Placement) =
    a.placement) (hp : Proper a.placement) :
    Translates output place a (finish t output refuses item)
      (fun later s' => (later.cached = item.cached ∧ later.fallback = item.fallback ∧
        later.output = item.output ∧ later.outline = item.outline) ∧
        Acts output place (fun q => q ≠ entryPlace place a.file.path) s s') s := by
  have hapart : place ++ [(item.module : RawText), item.goFile] ≠ entryPlace place a.file.path :=
    targetPlace_ne_entryPlace _ _ rfl
  have hputs : (finish t output refuses item).Within
      (Acts output place fun q => q ≠ entryPlace place a.file.path)
      (Acts output place fun q => q = place ++ [(item.module : RawText), item.goFile])
      (fun later _ => later.cached = item.cached ∧ later.fallback = item.fallback ∧
        later.output = item.output ∧ later.outline = item.outline) s :=
    (puts_finish t refuses (hplace ▸ hp) s).weaken (fun _ _ _ => trivial) fun _ _ => id
  have hleft := hputs.left steady_acts fun _ _ hstep => hstep.mono fun q hq => hq ▸ hapart
  refine hleft.weaken (fun _ _ hrely => hrely.mono fun q hq heq => hq (.inl heq))
    fun _ _ hstep => hstep.mono fun q hq => .inr ?_
  rw [hq, ← hplace]

theorem translates_process (hp : Proper a.placement)
    (hmodule : Layout.isPackageName a.placement.module = true) {o : Outline}
    (ho : a.outline = .ok o) (hretains : Retains output place a.file bytes e s) :
    Translates output place a (process t output refuses a)
      (Processed output place a t.settings.maxAttempts e) s := by
  unfold process
  rw [ho]
  refine ((plain_lend _).within s).bind steady_acts ?_
  rintro job s₁ ⟨hitem, hs₁⟩
  refine (translates_convert t (hretains.of_others hs₁) (by rw [hitem]; rfl)
    (by rw [hitem]; exact hmodule)).bind steady_acts ?_
  rintro ⟨done, last⟩ s₂ hmade
  rw [hitem] at hmade
  refine ((plain_say last.log).within s₂).bind steady_acts ?_
  rintro - s₃ ⟨-, hs₃⟩
  have houtline : last.item.outline ≠ none := by
    rw [hmade.converted.outline]
    exact Option.some_ne_none o
  cases done with
  | false =>
    refine .pure fun u _ => ⟨houtline, fun hnone => hmade.missed hnone, fun hstatus => ?_⟩
    obtain ⟨_, _, _, hlast⟩ := hmade.converted
    dsimp only at hlast
    have htarget := (of_statusOf_translated hstatus).1
    rw [hlast] at htarget
    exact absurd rfl htarget
  | true =>
    have hplace : (⟨last.item.module, last.item.goFile⟩ : Layout.Placement) = a.placement := by
      obtain ⟨_, _, _, _, _, _, hlast⟩ := hmade.converted
      dsimp only at hlast
      rw [hlast]
      rfl
    refine (translates_finish t refuses hplace hp).mono ?_
    rintro later s₄ ⟨⟨hcached, hfallback, houtput, hsame⟩, hs₄⟩
    refine ⟨hsame ▸ houtline, fun hnone => hcached.trans (hmade.missed hnone), fun hstatus => ?_⟩
    obtain ⟨-, huncached, hreal⟩ := of_statusOf_translated hstatus
    obtain ⟨hpos, attempts, failures, stages, content, hlast, hstocked⟩ :=
      hmade.stored rfl (hcached.symm.trans huncached) (hfallback.symm.trans hreal)
    dsimp only at hlast
    refine ⟨hpos, content, ?_, ?_⟩
    · rw [houtput, hlast]
    · exact (hstocked.of_acts hs₃ fun hnot => hnot (.inl rfl)).of_acts hs₄ fun hne => hne rfl

/-- A file whose translation was found, and whose Go file held it already. -/
def reused (output : Path) (a : Analyzed) (o : Outline) (content : String) : Item :=
  { Item.start a.file (some o) a.placement.module a.placement.fileName with
    output := some content, cached := true
    target := some (Layout.targetPath output a.placement)
    later := [.done, .cacheHit, .cacheCheck] }

theorem watches_finish (hgoes : t.service.GoesOn) (hp : Proper a.placement) {item : Item}
    {content : String} (hplace : (⟨item.module, item.goFile⟩ : Layout.Placement) = a.placement)
    (houtput : item.output = some content) (hcached : item.cached = true)
    (hhoused : Housed output place s.cache s.files)
    (hnode : s.files.node? (place ++ [(a.placement.module : RawText), a.placement.fileName]) =
      some (.file content.toUTF8)) :
    Watches output place a (finish t output refuses item)
      (fun later _ => later =
        { item with target := some (Layout.targetPath output a.placement), rewritten := false }) s := by
  unfold finish
  split
  · next hnone => cases houtput.symm.trans hnone
  next written hwritten =>
  cases houtput.symm.trans hwritten
  have hasked : Plain (Task.act (isCancelled t)) fun cancelled => cancelled = false :=
    .act fun s => ⟨⟨rfl, rfl, rfl⟩, hgoes s.outside⟩
  refine (hasked.within s).bind steady_acts ?_
  rintro cancelled s₁ ⟨rfl, hs₁⟩
  rw [if_neg Bool.false_ne_true]
  unfold write
  dsimp only
  rw [if_pos hcached, hplace]
  have hheld : Watches output place a (Task.act fun s : Shared σ =>
      (Layout.holds s.files (Layout.targetPath output a.placement) content, s))
      (fun held _ => held = true) s₁ := by
    refine .act fun s' hs' => ⟨Neutral.acts ⟨rfl, rfl, rfl⟩, fun _ _ => ?_⟩
    obtain ⟨hhoused', -, hwrites⟩ := steady_acts.trans hs₁ hs' hhoused
    refine (Layout.holds_of_leads hhoused'.values.wellFormed hhoused'.leads
      ⟨hp.module, hp.file.isName⟩).2 ?_
    rw [hwrites.node_eq (fun hnot => hnot (.inr rfl)) (by rw [hnode]; exact Option.some_ne_none _),
      hnode]
  refine hheld.bind steady_acts ?_
  rintro held s₂ rfl
  exact .pure fun _ _ => rfl

/-- A file whose translation is found is converted to it, and nothing is asked. -/
theorem watches_convert (hgoes : t.service.GoesOn) {o : Outline}
    (hretains : Retains output place a.file bytes e s) (hforce : s.cache.force = false)
    {translation : Cache.Translation} (htranslation : e.translation = some translation)
    {content : String} (hcontent : Go.retargetString translation.output a.placement.module = content)
    {job : Job σ}
    (hitem : job.item = .start a.file (some o) a.placement.module a.placement.fileName) :
    Watches output place a (convert t job)
      (fun r s' => r.1 = true ∧ r.2.item = { reused output a o content with target := none } ∧
        Acts output place (fun q => ¬Own place a q) s s') s := by
  have hasked : Plain (onJob t.isCancelled job) fun r => r.1 = false ∧ r.2.item = job.item :=
    .onJob fun _ _ outside => ⟨rfl, rfl, rfl, hgoes outside, rfl⟩
  refine (hasked.within s).bind steady_acts ?_
  rintro ⟨cancelled, asked⟩ s₁ ⟨⟨hgone, hasked⟩, hs₁⟩
  dsimp only at hgone hasked
  subst hgone
  have hchecked : (asked.move .cacheCheck).item.source = a.file := by
    rw [Job.item_move, hasked, hitem]
    rfl
  refine (watches_lookUp (hretains.of_others hs₁) hchecked).bind steady_acts ?_
  rintro ⟨hit, looked⟩ s₂ ⟨hfound, hlooked, hs₂⟩
  dsimp only at hfound hlooked
  rw [(hs₁ hretains.holds.housed).2.1, hforce, if_neg Bool.false_ne_true, htranslation] at hfound
  subst hfound
  refine .pure fun u hu => ⟨rfl, ?_, steady_acts.trans (steady_acts.trans hs₁ hs₂) hu⟩
  unfold Translator.reuse
  dsimp only [Job.item_move]
  rw [hlooked, Job.item_move, hasked, hitem, ← hcontent]
  rfl

/-- A file whose translation is found and whose Go file holds it is done without a change of
anything. -/
theorem watches_process (hgoes : t.service.GoesOn) (hp : Proper a.placement) {o : Outline}
    (ho : a.outline = .ok o) (hretains : Retains output place a.file bytes e s)
    (hforce : s.cache.force = false) {translation : Cache.Translation}
    (htranslation : e.translation = some translation) {content : String}
    (hcontent : Go.retargetString translation.output a.placement.module = content)
    (hnode : s.files.node? (place ++ [(a.placement.module : RawText), a.placement.fileName]) =
      some (.file content.toUTF8)) :
    Watches output place a (process t output refuses a)
      (fun item _ => item = reused output a o content) s := by
  unfold process
  rw [ho]
  refine ((plain_lend _).within s).bind steady_acts ?_
  rintro job s₁ ⟨hitem, hs₁⟩
  refine (watches_convert t hgoes (hretains.of_others hs₁)
    ((hs₁ hretains.holds.housed).2.1.trans hforce) htranslation hcontent hitem).bind steady_acts ?_
  rintro ⟨done, last⟩ s₂ ⟨hdone, hlast, hs₂⟩
  dsimp only at hdone hlast
  subst hdone
  refine ((plain_say last.log).within s₂).bind steady_acts ?_
  rintro - s₃ ⟨-, hs₃⟩
  obtain ⟨hhoused, -, hwrites⟩ :=
    steady_acts.trans (steady_acts.trans hs₁ hs₂) hs₃ hretains.holds.housed
  have hnode₃ : s₃.files.node? (place ++ [(a.placement.module : RawText), a.placement.fileName]) =
      some (.file content.toUTF8) := by
    rw [hwrites.node_eq (fun hnot => hnot (.inr rfl)) (by rw [hnode]; exact Option.some_ne_none _),
      hnode]
  refine (watches_finish t refuses hgoes hp (by rw [hlast]; rfl) (by rw [hlast]; rfl)
    (by rw [hlast]; rfl) hhoused hnode₃).mono ?_
  rintro later s₄ rfl
  rw [hlast]
  rfl

end Second

end Work

end Recast.Run
