/-
  Proofs/Run/Fulfilling.lean --- runs in which nothing goes wrong.

  If a service answers every prompt with code that is valid, then a file that parses, that the cache
  knows nothing about and whose Go file can be written is translated at the first attempt, whatever
  the order of the steps of the workers is (`completes_fulfils`).
-/
import Recast.Proofs.Conversion.Requests
import Recast.Proofs.Run.Publishing

set_option autoImplicit false

namespace Recast

/-- Code that is valid whatever its package is called. -/
def Assessment.Validator.Accepts (v : Assessment.Validator) (code : String) : Prop :=
  ∀ module, Layout.isPackageName module = true →
    (v.checkText (Go.retargetString code module)).1.valid = true

/-- A service that answers every prompt at once, and with code that is valid. -/
structure Service.Fulfils {σ : Type} (service : Service σ) (v : Assessment.Validator) : Prop where
  goesOn : service.GoesOn
  whole : service.streams = false
  answer : ∀ prompt o, ∃ text, (service.complete prompt o).1 = .ok text ∧
    v.Accepts (Reply.ofComplete text).code

namespace Run

open Conversion (Item Job Translator)

variable {σ : Type} {output : Path} {place : List RawText}

/-! ## Conversions -/

/-- Work that leaves the cache in the directory of the output and has a result of a kind, whatever
others write meanwhile. -/
def Yields {α : Type} (output : Path) (place : List RawText) (task : Task (Shared σ) α)
    (post : α → Prop) : Prop :=
  ∀ s, task.Within (Acts output place fun _ => True) (Acts output place fun _ => True)
    (fun a _ => post a) s

namespace Yields

variable {α β : Type} {post : α → Prop} {task : Task (Shared σ) α}

theorem pure {a : α} (h : post a) :
    Yields output place (Pure.pure a : Task (Shared σ) α) post :=
  fun _ => .pure fun _ _ => h

theorem bind {more : α → Task (Shared σ) β} {last : β → Prop} (h : Yields output place task post)
    (hmore : ∀ a, post a → Yields output place (more a) last) :
    Yields output place (task >>= more) last :=
  fun s => (h s).bind steady_acts fun a s' ha => hmore a ha s'

theorem of_plain (h : Plain task post) : Yields output place task post :=
  fun s => (h.within s).mono fun _ _ => And.left

end Yields

/-- A file whose translation is ready, and which is no skeleton. -/
def Fulfilled (item later : Item) : Prop :=
  ∃ attempts failures stages content, later =
    { item with attempts, failures, later := .done :: stages, output := some content }

theorem Carries.fulfilled {item later last : Item} (h : Carries item later)
    (h' : Fulfilled later last) : Fulfilled item last := by
  obtain ⟨_, _, _, rfl⟩ := h
  obtain ⟨_, _, _, _, rfl⟩ := h'
  exact ⟨_, _, _, _, rfl⟩

theorem Carries.module {item later : Item} (h : Carries item later) : later.module = item.module := by
  obtain ⟨_, _, _, rfl⟩ := h
  rfl

namespace Work

section Conversion

variable {t : Translator σ}

theorem plain_goesOn (hgoes : t.service.GoesOn) (job : Job σ) :
    Plain (onJob t.isCancelled job) fun r => r.1 = false ∧ r.2.item = job.item :=
  .onJob fun _ _ outside => ⟨rfl, rfl, rfl, hgoes outside, rfl⟩

theorem plain_answer (h : t.service.Fulfils t.validator) (prompt : Prompt) (job : Job σ) :
    Plain (request t prompt job) fun r =>
      (∃ code, r.1 = .ok code ∧ t.validator.Accepts code) ∧ Carries job.item r.2.item := by
  have hasked : Plain (onJob (complete t prompt) job) fun r =>
      (∃ text, r.1 = .ok text ∧ t.validator.Accepts (Reply.ofComplete text).code) ∧
        r.2.item = job.item :=
    .onJob fun _ _ outside => ⟨rfl, rfl, rfl, h.answer prompt outside, rfl⟩
  unfold request
  rw [h.whole, if_neg Bool.false_ne_true]
  refine hasked.bind ?_
  rintro ⟨answer, asked⟩ ⟨⟨text, hanswer, haccepts⟩, hitem⟩
  dsimp only at hanswer hitem
  subst hanswer
  exact .pure ⟨⟨_, rfl, haccepts⟩, ((Carries.of_eq hitem).move .complete).move .extracted⟩

theorem yields_accept (code : String) (n : Nat) (job : Job σ) :
    Yields output place (accept t code n job) fun accepted => Fulfilled job.item accepted.item := by
  have hloaded : Plain (onJob loadEntry (job.move .valid)) fun r =>
      r.2.item = job.item.move .valid := by
    refine .onJob fun cache files outside => ?_
    have hcache := Cache.consulted_load cache files (job.move .valid).path
    exact ⟨rfl, hcache.store, hcache.force, rfl⟩
  refine (Yields.of_plain hloaded).bind ?_
  rintro ⟨⟨entry, now⟩, loaded⟩ hitem
  have hstored : Yields output place
      (onJob (keepEntry (entryWith t code n loaded.item entry now)) loaded)
      fun r => r.2.item = loaded.item := by
    refine fun s => .act fun s' _ => ⟨fun hhoused => ?_, fun _ _ => rfl⟩
    obtain ⟨hkeep, hhoused', hwrites⟩ :=
      hhoused.keep loaded.path (entryWith t code n loaded.item entry now)
    change Housed output place (s'.cache.keep s'.files loaded.path _).1
      (s'.cache.keep s'.files loaded.path _).2.1 ∧
        (s'.cache.keep s'.files loaded.path _).1.force = s'.cache.force ∧
        s'.files.Writes (fun _ => True) (s'.cache.keep s'.files loaded.path _).2.1
    rw [hkeep]
    exact ⟨hhoused', rfl, hwrites.mono fun _ _ => trivial⟩
  refine hstored.bind ?_
  rintro ⟨_, kept⟩ hkept
  have hlast : kept.item = job.item.move .valid := hkept.trans hitem
  refine .pure ?_
  change Fulfilled job.item ({ kept.item with output := some code }.move .done)
  rw [hlast]
  exact ⟨_, _, _, _, rfl⟩

/-- The first attempt is the last one. -/
theorem yields_attempt (h : t.service.Fulfils t.validator) (prompt : Prompt) (n : Nat) {job : Job σ}
    (hmodule : Layout.isPackageName job.item.module = true) :
    Yields output place (attempt t prompt n job)
      fun r => r.1 = .finished ∧ Fulfilled job.item r.2.item := by
  have hsent : Carries job.item ({ job.item with attempts := n }.move .requestSent) :=
    ⟨_, _, _, rfl⟩
  refine (Yields.of_plain (plain_answer h prompt _)).bind ?_
  rintro ⟨answer, asked⟩ ⟨⟨code, hanswer, haccepts⟩, hasked⟩
  dsimp only at hanswer
  subst hanswer
  have hcarries : Carries job.item asked.item := hsent.trans hasked
  have hvalid := haccepts asked.item.module (hcarries.module ▸ hmodule)
  change Yields output place (judge t code n asked) _
  unfold judge
  dsimp only
  rw [if_pos hvalid]
  refine (yields_accept _ n _).bind fun accepted haccepted => ?_
  exact .pure ⟨rfl, hcarries.fulfilled haccepted⟩

/-- A conversion ends with a translation, be it a new one or one from the cache. -/
theorem yields_convert (h : t.service.Fulfils t.validator) (hattempts : 0 < t.settings.maxAttempts)
    {job : Job σ} (hmodule : Layout.isPackageName job.item.module = true) :
    Yields output place (convert t job) fun r =>
      r.1 = true ∧ ∃ cached, Fulfilled { job.item with cached } r.2.item := by
  refine (Yields.of_plain (plain_goesOn h.goesOn job)).bind ?_
  rintro ⟨cancelled, asked⟩ ⟨hgoes, hitem⟩
  dsimp only at hgoes hitem
  subst hgoes
  have hlooked : Plain (onJob lookUp (asked.move .cacheCheck)) fun r =>
      r.2.item = asked.item.move .cacheCheck := by
    refine .onJob fun cache files outside => ?_
    have hcache := Cache.consulted_translation? cache files (asked.move .cacheCheck).path
      (asked.move .cacheCheck).item.source.digest
    exact ⟨rfl, hcache.store, hcache.force, rfl⟩
  refine (Yields.of_plain hlooked).bind ?_
  rintro ⟨hit, looked⟩ hfound
  have hcarries : Carries job.item looked.item := by
    rw [hfound, hitem]
    exact (Carries.refl _).move .cacheCheck
  cases hit with
  | some hit =>
    obtain ⟨_, _, _, hlast⟩ := hcarries
    refine .pure ⟨rfl, true, ?_⟩
    change Fulfilled _ ((({ looked.item with
      output := some (Go.retargetString hit.output looked.item.module)
      cached := true } : Item).move .cacheHit).move .done)
    rw [hlast]
    exact ⟨_, _, _, _, rfl⟩
  | none =>
    have hbuilt : Carries job.item ((looked.move .cacheMiss).move .contextBuild).item :=
      (hcarries.move .cacheMiss).move .contextBuild
    obtain ⟨left, hleft⟩ := Nat.exists_eq_add_one.2 hattempts
    change Yields output place (attempts t _ t.settings.maxAttempts 1
      (((looked.move .cacheMiss).move .contextBuild).say _)) _
    rw [hleft]
    refine (Yields.of_plain (plain_goesOn h.goesOn _)).bind ?_
    rintro ⟨cancelled, again⟩ ⟨hgoes, hagain⟩
    dsimp only at hgoes hagain
    subst hgoes
    have hlast : Carries job.item again.item := by
      rw [hagain]
      exact hbuilt
    refine (yields_attempt h _ 1 (hlast.module ▸ hmodule)).bind ?_
    rintro ⟨ending, last⟩ ⟨hending, hfulfilled⟩
    dsimp only at hending
    subst hending
    exact .pure ⟨rfl, _, hlast.fulfilled hfulfilled⟩

end Conversion

end Work

/-! ## Go files that are there -/

/-- There is a Go file in the place of a placement, so that it can be written again. -/
structure Room (output : Path) (place : List RawText) (p : Layout.Placement) (s : Shared σ) :
    Prop where
  housed : Housed output place s.cache s.files
  directory : s.files.node? (place ++ [(p.module : RawText)]) = some .directory
  file : ∃ content,
    s.files.node? (place ++ [(p.module : RawText), p.fileName]) = some (.file content)

section Room

variable {p : Layout.Placement} {s s' : Shared σ}

/-- Whatever is written, the Go file stays a file. -/
theorem Room.of_acts (h : Room output place p s) {W : List RawText → Prop}
    (hacts : Acts output place W s s') : Room output place p s' := by
  obtain ⟨hhoused, -, hwrites⟩ := hacts h.housed
  refine ⟨hhoused, hwrites.directory h.directory, ?_⟩
  obtain ⟨content, hfile⟩ := h.file
  rcases hwrites.node (place ++ [(p.module : RawText), p.fileName]) with
    hsame | ⟨hnone, -⟩ | ⟨-, -, hwritten⟩
  · exact ⟨content, hsame.trans hfile⟩
  · cases hnone.symm.trans hfile
  · exact hwritten

/-- Work that does no more than others do leaves it there. -/
theorem Yields.keeps {α : Type} {task : Task (Shared σ) α} {post : α → Prop}
    (h : Yields output place task post) (hroom : Room output place p s) :
    task.Within (Acts output place fun _ => True) (fun _ _ => True)
      (fun a s' => post a ∧ Room output place p s') s := by
  have hleft := (h s).left steady_acts fun _ _ => id
  have hall : ∀ s s' : Shared σ, Acts output place (fun _ => True) s s' → True :=
    fun _ _ _ => trivial
  exact (hleft.weaken (fun _ _ => id) hall).mono fun _ _ hpost =>
    ⟨hpost.1, hroom.of_acts hpost.2⟩

theorem Room.fst_write (h : Room output place p s) (hp : Proper p) (content : String) :
    (Layout.write s.files output p content).1 = .ok () := by
  obtain ⟨earlier, hfile⟩ := h.file
  have hreached := h.housed.values.wellFormed.reached _ (hfile ▸ Option.some_ne_none _)
  have hsize (name : RawText) (hname : name ∈ place ++ [(p.module : RawText), p.fileName]) :
      ¬name.bytes.length > Files.maxNameSize := Nat.not_lt.2 (hreached.named name hname).2
  have hmoduleFault : Layout.moduleFault? s.files place p = none := by
    rw [Layout.moduleFault?, if_neg (hsize _ (by simp)), h.directory, if_neg (by simp)]
  have hfileFault : Layout.fileFault? s.files place p = none := by
    rw [Layout.fileFault?, if_neg (hsize _ (by simp)), hfile, if_neg fun heq => by cases heq]
  rw [Layout.write_of_leads h.housed.leads hp.module hp.file.isName, Layout.fault?, hmoduleFault,
    hfileFault]
  rfl

end Room

/-- A file whose Go file holds its translation. -/
def Landed (output : Path) (item later : Item) : Prop :=
  ∃ rewritten, later = { item with
    target := some (Layout.targetPath output ⟨item.module, item.goFile⟩), rewritten }

namespace Work

variable {t : Translator σ}

/-- Writing a Go file that is there succeeds, whatever others write. -/
theorem yields_put {item : Item} (hp : Proper ⟨item.module, item.goFile⟩) (content : String)
    {s : Shared σ} (hroom : Room output place ⟨item.module, item.goFile⟩ s) :
    (put output (fun _ => none) item content : Task (Shared σ) Item).Within
      (Acts output place fun _ => True) (fun _ _ => True)
      (fun later _ => Landed output item later) s := by
  refine .act fun s' hs' => ⟨trivial, fun _ _ => ⟨true, ?_⟩⟩
  have hwrite := (hroom.of_acts hs').fst_write hp content
  dsimp only
  generalize Layout.write s'.files output ⟨item.module, item.goFile⟩ content = wrote at hwrite ⊢
  obtain ⟨result, files⟩ := wrote
  dsimp only at hwrite
  subst hwrite
  rfl

theorem yields_finish (hgoes : t.service.GoesOn) {item : Item}
    (hp : Proper ⟨item.module, item.goFile⟩) {content : String} (hcontent : item.output = some content)
    {s : Shared σ} (hroom : Room output place ⟨item.module, item.goFile⟩ s) :
    (finish t output (fun _ => none) item).Within
      (Acts output place fun _ => True) (fun _ _ => True)
      (fun later _ => Landed output item later) s := by
  unfold finish
  rw [hcontent]
  have hasked : Plain (Task.act (isCancelled t)) (· = false) :=
    .act fun s => ⟨⟨rfl, rfl, rfl⟩, hgoes s.outside⟩
  refine ((Yields.of_plain hasked).keeps hroom).bind steady_acts ?_
  rintro cancelled s₁ ⟨rfl, hroom₁⟩
  change (write output (fun _ => none) item content).Within _ _ _ s₁
  unfold write
  dsimp only
  split
  · have hheld : Plain (Task.act fun s : Shared σ => (Layout.holds s.files
        (Layout.targetPath output ⟨item.module, item.goFile⟩) content, s)) fun _ => True :=
      .act fun _ => ⟨⟨rfl, rfl, rfl⟩, trivial⟩
    refine ((Yields.of_plain hheld).keeps hroom₁).bind steady_acts ?_
    rintro held s₂ ⟨-, hroom₂⟩
    split
    · exact .pure fun _ _ => ⟨false, rfl⟩
    · exact yields_put hp content hroom₂
  · exact yields_put hp content hroom₁

/-- A file that parses is translated, or its translation is taken from the cache. -/
theorem yields_process (h : t.service.Fulfils t.validator) (hattempts : 0 < t.settings.maxAttempts)
    {a : Analyzed} (hp : Proper a.placement)
    (hmodule : Layout.isPackageName a.placement.module = true) {o : Outline}
    (ho : a.outline = .ok o) {s : Shared σ} (hroom : Room output place a.placement s) :
    (process t output (fun _ => none) a).Within (Acts output place fun _ => True) (fun _ _ => True)
      (fun item _ => item.cached = false → statusOf item = .translated) s := by
  unfold process
  rw [ho]
  refine ((Yields.of_plain (plain_lend _)).keeps hroom).bind steady_acts ?_
  rintro job s₁ ⟨hitem, hroom₁⟩
  have hnamed : Layout.isPackageName job.item.module = true := by
    rw [hitem]
    exact hmodule
  have hconverted : Yields output place (convert t job) _ := yields_convert h hattempts hnamed
  refine (hconverted.keeps hroom₁).bind steady_acts ?_
  rintro ⟨done, last⟩ s₂ ⟨⟨hdone, cached, _, _, _, content, hlast⟩, hroom₂⟩
  dsimp only at hdone hlast
  subst hdone
  rw [hitem] at hlast
  refine ((Yields.of_plain (plain_say last.log)).keeps hroom₂).bind steady_acts ?_
  rintro - s₃ ⟨-, hroom₃⟩
  have hplace : (⟨last.item.module, last.item.goFile⟩ : Layout.Placement) = a.placement := by
    rw [hlast]
    rfl
  have hcontent : last.item.output = some content := by rw [hlast]
  refine (yields_finish h.goesOn (hplace ▸ hp) hcontent (hplace ▸ hroom₃)).mono ?_
  rintro item s₄ ⟨rewritten, rfl⟩ hcached
  dsimp only at hcached
  rw [hlast] at hcached ⊢
  dsimp only at hcached
  subst hcached
  rfl

end Work

/-! ## Runs -/

section Runs

variable {service : Service σ} {v : Assessment.Validator} {r : Request} {files : Files} {outside : σ}
  {report : Report} {last : Shared σ}

/-- With a service that always answers with valid code, files that parse, that the cache knows
nothing about and that have a Go file from before are all translated. -/
theorem completes_fulfils (hnames : r.tools.layout.NamesPackages) {found : Scan.Result} {log : Log}
    (hhoused : Housed r.output place (Shared.openFor r files outside).cache
      (Shared.openFor r files outside).files)
    (hscan : Scan.scan r.tools.scan (Shared.openFor r files outside).files r.input = .ok (found, log))
    (htold : ∀ a ∈ found.files, ∀ b ∈ found.files, Cache.ToldApart a.path b.path)
    (hfulfils : service.Fulfils v) (hattempts : 0 < r.conversion.maxAttempts)
    (hnew : ∀ file ∈ found.files, (∃ o, file.HasOutline o) ∧
      (Shared.openFor r files outside).cache.remembers (Shared.openFor r files outside).files
        file.path = none)
    (hroom : ∀ p ∈ (placements r found).1, Room r.output place p (Shared.openFor r files outside))
    (h : Completes service v r (fun _ => none) files outside report last) :
    ∀ item ∈ report.items, statusOf item = .translated := by
  cases h with
  | @intro found' log' outlines analyzed worked items pushed scanned first second order =>
  cases hscan.symm.trans scanned
  have hlength : outlines.length = found.files.length := by
    rw [first.length_eq, List.length_map]
  have hnodup := Scan.nodup_paths hhoused.values.wellFormed scanned
  obtain ⟨hlearned, hentered, hsaved⟩ := prepared_of_interleave hnodup htold
    (filedIn_openIn _ _ _ _) first fun file _ => Work.learns_analyze file hhoused
  have hwork (a : Analyzed) (ha : a ∈ assign r found outlines) :
      Translates r.output place a (Work.process ⟨service, v, analyzed.flush.index, r.conversion⟩
        r.output (fun _ => none) a) (fun item _ => statusOf item = .translated) analyzed.flush := by
    have hmem := List.of_mem_zip (mem_places_of_mem_assign hlength ha)
    obtain ⟨⟨o, ho⟩, hnone⟩ := hnew _ hmem.1
    have hanalyzed := of_mem_assign hlearned ha
    obtain ⟨o', ho'⟩ := hanalyzed.parsed o ho
    obtain ⟨-, bytes, e, hretains, hmissed⟩ := hanalyzed.entry o' ho'
    have hroom' := ((hroom _ hmem.2).of_acts hentered).of_acts hsaved
    have hprocessed := Work.translates_process
      ⟨service, v, analyzed.flush.index, r.conversion⟩ (fun _ => none)
      (proper_assign hnames hlength ha) (isPackageName_assign hnames hlength ha) ho'
      (hretains.of_acts hsaved (entryPlace_ne_indexPlace place _))
    have hyields := Work.yields_process
      (t := ⟨service, v, analyzed.flush.index, r.conversion⟩) hfulfils hattempts
      (proper_assign hnames hlength ha) (isPackageName_assign hnames hlength ha) ho' hroom'
    have hnothing : Cache.matching a.file.digest ((Shared.openFor r files outside).cache.remembers
        (Shared.openFor r files outside).files a.file.path) = none := by
      rw [hnone]
      rfl
    refine (hprocessed.and (hyields.weaken (fun _ _ hrely => hrely.mono fun _ _ => trivial)
      fun _ _ => id)).mono fun item s' hitem => ?_
    exact hitem.2 (hitem.1.missed (hmissed hnothing))
  obtain ⟨hworked, -⟩ := worked_assign hlength hnodup htold second hwork
  obtain ⟨modules, hlisted⟩ := exists_listed service v r found order worked
  intro item hitem
  obtain ⟨original, horiginal, rfl⟩ := List.mem_map.1 (hlisted.subset hitem)
  obtain ⟨a, -, hstatus⟩ := Task.exists_of_mem_forall₂ hworked horiginal
  rw [statusOf_judge]
  exact hstatus

end Runs

end Run

end Recast
