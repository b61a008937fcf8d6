/-
  Proofs/Run/Incremental.lean --- a run after one that translated everything.

  If some source files are changed after such a run, and nothing else, the next one finds the
  translation of each of the other files in the cache and in its Go file.  So it asks the service for
  the files that were changed and for no other, and leaves the others as they are
  (`completes_incremental`).
-/
import Recast.Proofs.Run.Additive
import Recast.Proofs.Run.Asking
import Recast.Proofs.Run.Fulfilling

set_option autoImplicit false

namespace Recast.Run

open Conversion (Item Stage Translator)

variable {σ τ : Type}

/-! ## Work on files of which some have changed -/

section Work

variable {output : Path} {place : List RawText} {changed : Path → Prop} {earlier : List Item}
  {opened : Shared σ}

/-- What the first pass finds out about a file: it parses, and its entry has no translation if it was
changed, and is the one that was there if it was not. -/
structure Recalled (output : Path) (place : List RawText) (changed : Path → Prop) (opened : Shared σ)
    (file : SourceFile) (result : Except String Outline) (s : Shared σ) : Prop where
  parsed : ∃ o, result = .ok o
  edited : changed file.path → ∃ bytes e, Retains output place file bytes e s ∧ e.translation = none
  kept : ¬changed file.path → ∀ bytes e, Retains output place file bytes e opened →
    Retains output place file bytes e s

/-- What an earlier run has left about a file is still there. -/
def Kept (output : Path) (place : List RawText) (earlier : List Item) (opened : Shared σ)
    (file : SourceFile) (p : Layout.Placement) (content : String) (s : Shared σ) : Prop :=
  ∃ old ∈ earlier, old.output = some content ∧ ∃ bytes,
    Published output place file p old bytes opened ∧ Published output place file p old bytes s

/-- What becomes of a file: it is translated anew if it was changed, and left as it was if it was
not. -/
structure Redone (output : Path) (place : List RawText) (changed : Path → Prop) (earlier : List Item)
    (opened : Shared σ) (a : Analyzed) (item : Item) (s : Shared σ) : Prop where
  parsed : item.outline ≠ none
  edited : changed a.file.path → item.cached = false
  kept : ¬changed a.file.path → ∃ o content, item = Work.reused output a o content ∧
    Kept output place earlier opened a.file a.placement content s

namespace Work

theorem recalls_analyze {file : SourceFile} {s : Shared σ}
    (hhoused : Housed output place s.cache s.files)
    (hkept : ¬changed file.path → file.syntaxError = none ∧
      ∃ bytes e, Retains output place file bytes e s)
    (hedited : changed file.path → (∃ o, file.HasOutline o) ∧
      Cache.matching file.digest (s.cache.remembers s.files file.path) = none) :
    Enters output place file.path (analyze file) (Recalled output place changed s file) s := by
  by_cases hchanged : changed file.path
  · obtain ⟨⟨o, ho⟩, hnone⟩ := hedited hchanged
    refine (learns_analyze file hhoused).mono fun result s' hlearned => ?_
    obtain ⟨o', rfl⟩ := hlearned.parsed o ho
    obtain ⟨-, bytes, e, hretains, hnew⟩ := hlearned.entry o' rfl
    exact ⟨⟨o', rfl⟩, fun _ => ⟨bytes, e, hretains, hnew hnone⟩, fun hnot => absurd hchanged hnot⟩
  · obtain ⟨hparses, bytes, e, hretains⟩ := hkept hchanged
    refine (retains_analyze file hparses hretains).mono fun result s' hresult => ?_
    refine ⟨hresult.1, fun hedit => absurd hedit hchanged, fun _ other e' hother => ?_⟩
    obtain ⟨rfl, rfl⟩ := hretains.unique hother
    exact hresult.2

theorem redoes_process (t : Translator σ) (refuses : Layout.Placement → Option Layout.WriteError)
    (hgoes : t.service.GoesOn) {a : Analyzed} (hp : Proper a.placement)
    (hmodule : Layout.isPackageName a.placement.module = true) {s : Shared σ}
    (hforce : s.cache.force = false) {o : Outline} (ho : a.outline = .ok o)
    (hkept : ¬changed a.file.path →
      ∃ content, Kept output place earlier opened a.file a.placement content s)
    (hedited : changed a.file.path →
      ∃ bytes e, Retains output place a.file bytes e s ∧ e.translation = none) :
    Translates output place a (process t output refuses a)
      (Redone output place changed earlier opened a) s := by
  by_cases hchanged : changed a.file.path
  · obtain ⟨bytes, e, hretains, hnone⟩ := hedited hchanged
    refine (translates_process t refuses hp hmodule ho hretains).mono fun item s' hprocessed => ?_
    exact ⟨hprocessed.parsed, fun _ => hprocessed.missed hnone, fun hnot => absurd hchanged hnot⟩
  · obtain ⟨content, old, hold, houtput, bytes, hopened, hpublished⟩ := hkept hchanged
    obtain ⟨written, e, translation, hwritten, hretains, htranslation, hcode, hnode⟩ :=
      hpublished.content
    cases houtput.symm.trans hwritten
    refine (watches_process t refuses hgoes hp ho hretains hforce htranslation hcode
      hnode).translates.mono ?_
    rintro item s' ⟨rfl, hacts⟩
    refine ⟨Option.some_ne_none o, fun hedit => absurd hedit hchanged,
      fun _ => ⟨o, content, rfl, old, hold, houtput, bytes, hopened, hpublished.of_acts hacts ?_ ?_⟩⟩
    · exact fun hnot => hnot (.inl rfl)
    · exact fun hnot => hnot (.inr rfl)

end Work

end Work

/-! ## Figures of a file -/

/-- A prompt that asks for the translation of a file: what it says about other files may be
anything. -/
def AsksFor (r : Request) (item : Item) (prompt : Prompt) : Prop :=
  ∃ related, prompt = PromptText.build r.conversion.topK item.source (item.outline.getD {}) related
    r.conversion.hints item.module

/-- The prompts for a file that a service was asked exactly if it was changed. -/
structure Answered (r : Request) (changed : Path → Prop) (item : Item) (prompts : Multiset Prompt) :
    Prop where
  sent : prompts ≠ 0 ↔ changed item.source.path
  about : ∀ prompt ∈ prompts, AsksFor r item prompt
  stage : .requestSent ∈ item.trace ↔ changed item.source.path

theorem mem_trace_iff {item : Item} : Stage.requestSent ∈ item.trace ↔ .requestSent ∈ item.later := by
  rw [Item.trace]
  simp

theorem Answered.judge {r : Request} {changed : Path → Prop} {item : Item} {prompts : Multiset Prompt}
    (h : Answered r changed item prompts) (v : Assessment.Validator)
    (modules : Table String Assessment.ModuleCheck) :
    Answered r changed (judge v modules item) prompts := by
  unfold Run.judge
  split
  · exact ⟨h.sent, h.about, h.stage⟩
  · exact h

/-- The service was asked for a file exactly if the file was changed. -/
theorem Redone.answered {output : Path} {place : List RawText} {changed : Path → Prop}
    {earlier : List Item} {opened s : Shared (τ × List Prompt)} {a : Analyzed} {item : Item}
    (h : Redone output place changed earlier opened a item s) (hsource : item.source = a.file)
    {r : Request} {t : Translator (τ × List Prompt)} (hsettings : t.settings = r.conversion)
    {m : Multiset Prompt} (hasked : Work.Asked t item m) : Answered r changed item m := by
  obtain ⟨hparsed, hedited, hkept⟩ := h
  rw [← hsource] at hedited hkept
  by_cases hchanged : changed item.source.path
  · cases hasked with
    | spared known stages =>
      rcases known with hcached | houtline
      · cases (hedited hchanged).symm.trans hcached
      · exact absurd houtline hparsed
    | @sent prompt n cached asks stage =>
      have hsent : Multiset.replicate (n + 1) prompt ≠ 0 := by
        rw [Multiset.replicate_succ]
        exact Multiset.cons_ne_zero
      refine ⟨iff_of_true hsent hchanged, fun other hother => ?_,
        iff_of_true (mem_trace_iff.2 stage) hchanged⟩
      rw [Multiset.eq_of_mem_replicate hother]
      unfold Translator.promptsFor at asks
      rw [hsettings] at asks
      exact asks
  · obtain ⟨o, content, hitem, -⟩ := hkept hchanged
    cases hasked with
    | spared known stages =>
      exact ⟨iff_of_false (not_not.2 rfl) hchanged, nofun, iff_of_false (mt mem_trace_iff.1 stages) hchanged⟩
    | sent n cached asks stage =>
      rw [hitem] at cached
      cases cached

/-! ## The later run -/

section Later

variable {service : Service τ} {v : Assessment.Validator} {r : Request}
  {refuses : Layout.Placement → Option Layout.WriteError} {files : Files} {outside : τ}
  {report : Report} {last : Shared (τ × List Prompt)} {place : List RawText}
  {changed : Path → Prop} {earlier : List Item}

/-- A file of a later report that was taken from the cache. -/
structure Recycled (r : Request) (place : List RawText) (earlier : List Item)
    (opened : Shared τ) (item : Item) (last : Shared τ) : Prop where
  status : statusOf item = .cached
  untouched : item.rewritten = false
  kept : ∃ content p, item.output = some content ∧ Proper p ∧
    item.target = some (Layout.targetPath r.output p) ∧
    Kept r.output place earlier opened item.source p content last

theorem Recycled.judge {opened : Shared τ} {item : Item} {s : Shared τ}
    (h : Recycled r place earlier opened item s) (v : Assessment.Validator)
    (modules : Table String Assessment.ModuleCheck) :
    Recycled r place earlier opened (judge v modules item) s := by
  refine ⟨(statusOf_judge v modules item).trans h.status, ?_, ?_⟩
  · unfold Run.judge
    split
    · exact h.untouched
    · exact h.untouched
  · rw [output_judge, target_judge, source_judge]
    exact h.kept

theorem Kept.of_acts {output : Path} {opened s t : Shared τ} {file : SourceFile}
    {p : Layout.Placement} {content : String}
    (h : Kept output place earlier opened file p content s) {W : List RawText → Prop}
    (hacts : Acts output place W s t) (hentry : ¬W (entryPlace place file.path))
    (htarget : ¬W (place ++ [(p.module : RawText), p.fileName])) :
    Kept output place earlier opened file p content t := by
  obtain ⟨old, hold, houtput, bytes, hopened, hpublished⟩ := h
  exact ⟨old, hold, houtput, bytes, hopened, hpublished.of_acts hacts hentry htarget⟩

theorem Kept.exists_retains {output : Path} {opened s : Shared τ} {file : SourceFile}
    {p : Layout.Placement} {content : String}
    (h : Kept output place earlier opened file p content s) :
    file.syntaxError = none ∧ ∃ bytes e, Retains output place file bytes e s := by
  obtain ⟨old, -, -, bytes, -, hpublished⟩ := h
  obtain ⟨-, e, -, -, hretains, -⟩ := hpublished.content
  exact ⟨hpublished.parses, bytes, e, hretains⟩

/-- The first pass leaves what is there about files that have not changed. -/
theorem Kept.of_recalled {output : Path} {opened s : Shared τ} {file : SourceFile}
    {p : Layout.Placement} {content : String} {result : Except String Outline}
    (h : Kept output place earlier opened file p content opened)
    (hrecalled : Recalled output place changed opened file result s) (hnot : ¬changed file.path)
    (hentered : Acts output place (fun q => ∃ path, q = entryPlace place path) opened s) :
    Kept output place earlier opened file p content s := by
  obtain ⟨old, hold, houtput, bytes, hopened, -⟩ := h
  obtain ⟨written, e, translation, -, hretains, -, -, hnode⟩ := hopened.content
  have hretains' := hrecalled.kept hnot bytes e hretains
  obtain ⟨hhoused, -, hwrites⟩ := hentered hopened.housed
  refine ⟨old, hold, houtput, bytes, hopened, hopened.congr hhoused ?_ (hwrites.node_eq ?_ ?_)⟩
  · rw [hretains'.holds.node, hopened.entry]
  · rintro ⟨path, heq⟩
    exact Work.targetPlace_ne_entryPlace path _ rfl heq
  · rw [hnode]
    exact Option.some_ne_none _

theorem outside_flush (s : Shared σ) : s.flush.outside = s.outside := by
  unfold Shared.flush
  split <;> rfl

/-- The prompts that were sent are still known at the end of the run. -/
theorem prompts_conclude (found : Scan.Result) (items : List Item)
    (s : Shared (τ × List Prompt)) :
    (conclude service.recorded v r found items s).2.prompts = s.prompts := by
  have hdescribe (items : List Item) : (describe r items s).2.outside = s.outside := by
    unfold describe
    split
    · rfl
    · split <;> rfl
  unfold conclude Shared.prompts
  dsimp only [Shared.say]
  rw [hdescribe]
  rfl

/-- Every file has a place. -/
theorem exists_place_of_mem (r : Request) {found : Scan.Result} {file : SourceFile}
    (hfile : file ∈ found.files) : ∃ p, (file, p) ∈ found.files.zip (placements r found).1 := by
  rw [← List.map_fst_zip (Nat.le_of_eq (length_placements r found).symm)] at hfile
  obtain ⟨⟨file', p⟩, hmem, rfl⟩ := List.mem_map.1 hfile
  exact ⟨p, hmem⟩

/-- A run that begins with what an earlier run has left about the files that have not changed since
then, while the others have new digests. -/
structure Resumes (r : Request) (place : List RawText) (changed : Path → Prop) (earlier : List Item)
    (found : Scan.Result) (opened : Shared τ) : Prop where
  housed : Housed r.output place opened.cache opened.files
  told : ∀ a ∈ found.files, ∀ b ∈ found.files, Cache.ToldApart a.path b.path
  attempts : ∀ file ∈ found.files, 0 < r.conversion.maxAttempts
  kept : ∀ file p, (file, p) ∈ found.files.zip (placements r found).1 → ¬changed file.path →
    ∃ content, Kept r.output place earlier opened file p content opened
  edited : ∀ file ∈ found.files, changed file.path → (∃ o, file.HasOutline o) ∧
    Cache.matching file.digest (opened.cache.remembers opened.files file.path) = none

namespace Resumes

section Passes

variable {found : Scan.Result} {opened : Shared (τ × List Prompt)} {log : Log}
  {outlines : List (Except String Outline)} {analyzed worked : Shared (τ × List Prompt)}
  {items : List Item}

/-- After the first pass of such a run, a file that was changed is worked on anew, and what is there
about another one is left as it is. -/
theorem translates (hresumes : Resumes r place changed earlier found opened)
    (hnames : r.tools.layout.NamesPackages) (hgoes : service.GoesOn) (hforce : r.force = false)
    (hopened : opened = Shared.openFor r files (outside, []))
    (hscan : Scan.scan r.tools.scan opened.files r.input = .ok (found, log)) {said : Log}
    (hfirst : Task.Interleave (found.files.map Work.analyze) (begin r found (opened.say said))
      outlines analyzed) (hlength : outlines.length = found.files.length) {a : Analyzed}
    (ha : a ∈ assign r found outlines) :
    Translates r.output place a
      (Work.process ⟨service.recorded, v, analyzed.flush.index, r.conversion⟩ r.output refuses a)
      (Redone r.output place changed earlier opened a) analyzed.flush := by
  obtain ⟨hhoused, htold, -, hkept, hedited⟩ := hresumes
  have hnodup := Scan.nodup_paths hhoused.values.wellFormed hscan
  have hfiled : FiledIn r.output opened.index := hopened ▸ filedIn_openIn _ _ _ _
  obtain ⟨hlearned, hentered, hsaved⟩ := prepared_of_interleave hnodup htold hfiled hfirst
    fun file hfile => Work.recalls_analyze hhoused (fun hnot => by
      obtain ⟨p, hmem⟩ := exists_place_of_mem r hfile
      obtain ⟨content, hcontent⟩ := hkept file p hmem hnot
      exact hcontent.exists_retains) (hedited file hfile)
  have hproper := proper_assign hnames hlength ha
  have hforced : analyzed.flush.cache.force = false := by
    obtain ⟨hhoused', hforce', -⟩ := hentered hhoused
    rw [(hsaved hhoused').2.1, hforce', hopened]
    exact hforce
  have hrecalled := of_mem_assign hlearned ha
  obtain ⟨o, ho⟩ := hrecalled.parsed
  refine Work.redoes_process _ refuses hgoes.recorded hproper
    (isPackageName_assign hnames hlength ha) hforced ho (fun hnot => ?_) fun hchanged => ?_
  · obtain ⟨content, hcontent⟩ := hkept _ _ (mem_places_of_mem_assign hlength ha) hnot
    exact ⟨content, (hcontent.of_recalled hrecalled hnot hentered).of_acts hsaved
      (entryPlace_ne_indexPlace place _) (target_ne_indexPlace place hproper)⟩
  · obtain ⟨bytes, e, hretains, hnone⟩ := hrecalled.edited hchanged
    exact ⟨bytes, e, hretains.of_acts hsaved (entryPlace_ne_indexPlace place _), hnone⟩

/-- The prompts that such a run has sent after the second pass are those of its files. -/
theorem prompts_eq (hresumes : Resumes r place changed earlier found opened)
    (hgoes : service.GoesOn) (hopened : opened = Shared.openFor r files (outside, []))
    {said : Log} (hfirst : Task.Interleave (found.files.map Work.analyze)
      (begin r found (opened.say said)) outlines analyzed)
    (hlength : outlines.length = found.files.length)
    (hsecond : Task.Interleave ((assign r found outlines).map (Work.process
      ⟨service.recorded, v, analyzed.flush.index, r.conversion⟩ r.output refuses)) analyzed.flush
      items worked) :
    ∃ all, worked.prompts = all.sum ∧ List.Forall₂
      (Work.Asked ⟨service.recorded, v, analyzed.flush.index, r.conversion⟩) items all := by
  have htasks : List.Forall₂ (fun n task => task.Adds Shared.prompts (Work.Asked
        ⟨service.recorded, v, analyzed.flush.index, r.conversion⟩) n)
      ((assign r found outlines).map fun _ => 0)
      ((assign r found outlines).map (Work.process
        ⟨service.recorded, v, analyzed.flush.index, r.conversion⟩ r.output refuses)) := by
    rw [List.forall₂_map_left_iff, List.forall₂_map_right_iff, List.forall₂_same]
    intro a ha
    refine Work.asks_process _ rfl hgoes ?_ r.output refuses a
    exact hresumes.attempts _ (file_mem_of_mem_assign hlength ha)
  obtain ⟨all, hall, htotal⟩ := hsecond.total htasks
  have hbegun : analyzed.prompts = (begin r found (opened.say said)).prompts :=
    view_first (fun _ _ houtside _ _ => prompts_of_outside houtside) hfirst
  have hnone : analyzed.flush.prompts = 0 := by
    rw [prompts_of_outside (outside_flush analyzed), hbegun]
    change opened.prompts = 0
    rw [hopened]
    rfl
  rw [hnone, List.sum_map_zero, add_zero, zero_add] at htotal
  exact ⟨all, htotal, hall⟩

end Passes

end Resumes

/-- Such a run asks for the files that were changed, and takes the others from the cache. -/
theorem completes_redoes (hnames : r.tools.layout.NamesPackages) (hgoes : service.GoesOn)
    (hforce : r.force = false) {found : Scan.Result} {log : Log} {opened : Shared (τ × List Prompt)}
    (hopened : opened = Shared.openFor r files (outside, []))
    (hscan : Scan.scan r.tools.scan opened.files r.input = .ok (found, log))
    (hresumes : Resumes r place changed earlier found opened)
    (h : Completes service.recorded v r refuses files (outside, []) report last) :
    (∃ prompts, last.prompts = prompts.sum ∧
        List.Forall₂ (Answered r changed) report.items prompts) ∧
      ∀ item ∈ report.items, ¬changed item.source.path →
        Recycled r place earlier opened item last := by
  cases h with
  | @intro found' log' outlines analyzed worked items pushed scanned first second order =>
  rw [← hopened] at scanned first
  cases hscan.symm.trans scanned
  have hlength : outlines.length = found.files.length := by
    rw [first.length_eq, List.length_map]
  have hnodup := Scan.nodup_paths hresumes.housed.values.wellFormed scanned
  obtain ⟨hredone, -⟩ := worked_assign hlength hnodup hresumes.told second fun a ha =>
    hresumes.translates hnames hgoes hforce hopened hscan first hlength ha
  have hboth := List.Forall₂.mp (fun _ _ => And.intro) hredone
    (settled_of_interleave hnames hlength _ refuses second)
  obtain ⟨modules, hlisted⟩ := exists_listed service.recorded v r found order worked
  refine ⟨?_, fun item hitem hnot => ?_⟩
  · obtain ⟨all, htotal, hall⟩ := hresumes.prompts_eq hgoes hopened first hlength second
    have hitems (item : Item) (hitem : item ∈ items) := Task.exists_of_mem_forall₂ hboth hitem
    have hanswered : List.Forall₂ (Answered r changed) (items.map (judge v modules)) all := by
      rw [List.forall₂_map_left_iff]
      refine ((List.forall₂_and_left items all).2 ⟨hitems, hall⟩).imp ?_
      rintro item m ⟨⟨a, -, hredone, hends⟩, hasked⟩
      exact (hredone.answered hends.source rfl hasked).judge v modules
    obtain ⟨prompts, hprompts, hperm⟩ := List.perm_comp_forall₂ hlisted hanswered
    refine ⟨prompts, ?_, hprompts⟩
    rw [prompts_conclude, htotal, hperm.sum_eq]
  · obtain ⟨original, horiginal, rfl⟩ := List.mem_map.1 (hlisted.subset hitem)
    obtain ⟨a, ha, hredone, hends⟩ := Task.exists_of_mem_forall₂ hboth horiginal
    rw [source_judge, hends.source] at hnot
    obtain ⟨o, content, rfl, hcontent⟩ := hredone.kept hnot
    refine Recycled.judge ⟨rfl, rfl, content, a.placement, rfl, proper_assign hnames hlength ha, rfl,
      ?_⟩ v modules
    exact hcontent.of_acts (acts_conclude service.recorded v r found pushed worked)
      (not_closing_entryPlace place _) (not_closing_target place _)

end Later

/-! ## Two runs -/

/-- A tree in which source files have been changed such that they still parse and have another digest,
and nothing else. -/
structure Edited (s : Scan.Settings) (changed : Path → Prop) (f g : Files) : Prop where
  wellFormed : g.WellFormed
  sources : Scan.Follows s changed f g
  others : ∀ place, ¬Scan.IsSourcePlace place → g.node? place = f.node? place

/-- A source file that holds something else now. -/
theorem Edited.of_put {f : Files} (hf : f.WellFormed) {s : Scan.Settings} {q : List RawText}
    (hsource : Scan.IsSourcePlace q) {earlier content : ByteArray}
    (hnode : f.node? q = some (.file earlier)) (hsize : earlier.size ≤ s.maxSize)
    (hsize' : content.size ≤ s.maxSize) (houtline : ∃ o, Outline.ofBytes content = .ok o)
    (hdigest : Digest.ofBytes content ≠ Digest.ofBytes earlier) :
    Edited s (· = Files.pathOf q) f (f.put q (.file content)) := by
  have hfile : f.node? q ≠ some .directory := by
    rw [hnode]
    exact nofun
  have hreached {place : List RawText} (h : f.node? place ≠ none) :
      ∀ name ∈ place, Path.IsName name :=
    fun name hname => ((hf.reached place h).named name hname).1
  have hq : f.node? q ≠ none := hnode ▸ Option.some_ne_none _
  refine ⟨hf.put (hf.reached q hq) hfile _, ⟨rfl, fun place => ?_, fun place c _ hplace => ?_,
    fun place c hplace hc => ?_⟩, fun place hplace => ?_⟩
  · exact (Files.directory_put_file hfile content place).2
  · rw [Files.node?_put_file hfile] at hplace
    split at hplace
    · next heq => exact ⟨earlier, heq ▸ hnode⟩
    · exact ⟨c, hplace⟩
  · rw [Files.node?_put_file hfile]
    split
    · next heq =>
      subst heq
      cases hnode.symm.trans hc
      exact ⟨content, rfl, .inr ⟨rfl, hsize, hsize', houtline, hdigest⟩⟩
    · next hne =>
      refine ⟨c, hc, .inl ⟨fun heq => hne ?_, rfl⟩⟩
      exact Files.pathOf_injective (hreached (hc ▸ Option.some_ne_none _)) (hreached hq) heq
  · rw [Files.node?_put_file hfile, if_neg]
    rintro rfl
    exact hplace hsource

/-- A cache stays in its place when source files are changed. -/
theorem Housed.edited {output : Path} {place : List RawText} {c : Cache} {f g : Files}
    {s : Scan.Settings} {changed : Path → Prop} (h : Housed output place c f)
    (hedited : Edited s changed f g) : Housed output place c g := by
  have hleads := (Files.leads_of_find h.values.found).mono hedited.sources.here
    hedited.sources.directory
  refine ⟨h.leads.mono hedited.sources.here hedited.sources.directory, h.kept, hedited.wellFormed, ?_,
    fun name hjson => ?_⟩
  · obtain ⟨htarget, -, hname⟩ := Files.find_eq_ok.1 h.values.found
    exact Files.find_eq_ok.2 ⟨Files.target_mono hedited.sources.here hedited.sources.directory htarget,
      hleads.node, hname⟩
  · rw [hedited.others]
    · exact h.values.values name hjson
    · rintro ⟨above, other, heq, hname⟩
      cases (List.append_inj' heq rfl).2
      exact absurd (Option.some.inj (hjson.symm.trans hname)) (by decide)

/-- What the store holds for a file is what is at the place of its entry. -/
theorem Housed.stored? {output : Path} {place : List RawText} {s : Shared σ}
    (h : Housed output place s.cache s.files) (path : Path) :
    s.stored? (Cache.entryKey path) = Cache.contentOf? (s.files.node? (entryPlace place path)) := by
  have hheld := h.values.held? "dir" [] (Cache.entryKey path)
  rw [stored?_of_ok h.kept]
  change (Cache.Store.held? ⟨"dir", .directory (cacheDirectory output), []⟩ _ _).toOption.join = _
  rw [hheld]
  rfl

/-- A file of a later report, taken from the cache as an earlier run has left it: neither its Go file
nor its entry is written again. -/
structure Reused (s : Shared σ) (last : Shared τ) (old item : Item) : Prop where
  status : statusOf item = .cached
  source : item.source = old.source
  output : item.output = old.output
  target : item.target = old.target
  untouched : item.rewritten = false
  held : ∃ path content, item.target = some path ∧ item.output = some content ∧
    s.files.read path = .ok content.toUTF8 ∧ last.files.read path = .ok content.toUTF8
  entry : ∃ bytes, s.stored? (Cache.entryKey item.source.path) = some bytes ∧
    last.stored? (Cache.entryKey item.source.path) = some bytes

/-- A run after an earlier one that asks for the files that were changed in between, and for no other.
-/
structure Incremental (r : Request) (changed : Path → Prop) (before : Report) (s : Shared σ)
    (report : Report) (last : Shared (τ × List Prompt)) : Prop where
  /-- The files are the same. -/
  paths : (report.items.map (·.source.path)).Perm (before.items.map (·.source.path))
  /-- The prompts that were sent are those for the files that were changed. -/
  asked : ∃ prompts, last.prompts = prompts.sum ∧
    List.Forall₂ (Answered r changed) report.items prompts
  kept : ∀ item ∈ report.items, ¬changed item.source.path →
    ∃ old ∈ before.items, Reused s last old item

section Incremental

variable {r : Request} {place : List RawText} {changed : Path → Prop}

theorem Recycled.reused {before : Report} {s : Shared σ} {opened last : Shared τ} {item : Item}
    (h : Recycled r place before.items opened item last)
    (hhoused : Housed r.output place s.cache s.files)
    (hothers : ∀ q, ¬Scan.IsSourcePlace q → s.files.node? q = opened.files.node? q) :
    ∃ old ∈ before.items, Reused s last old item := by
  obtain ⟨content, p, houtput, hp, htarget, old, hold, holdOutput, bytes, hopened, hlast⟩ := h.kept
  have hgo : ¬Scan.IsSourcePlace (place ++ [(p.module : RawText), p.fileName]) :=
    not_isSourcePlace_target place hp.file
  have hbefore := hopened.congr hhoused (hothers _ (not_isSourcePlace_entryPlace place _))
    (hothers _ hgo)
  have hread {υ : Type} {t : Shared υ} (h : Published r.output place item.source p old bytes t) :
      t.files.read (Layout.targetPath r.output p) = .ok content.toUTF8 := by
    obtain ⟨written, hwritten, hnode⟩ := h.goFile
    cases holdOutput.symm.trans hwritten
    exact (Layout.read_of_leads h.housed.values.wellFormed h.housed.leads
      ⟨hp.module, hp.file.isName⟩).2 hnode
  refine ⟨old, hold, h.status, hopened.source.symm, houtput.trans holdOutput.symm,
    htarget.trans hopened.target.symm, h.untouched, ⟨_, content, htarget, houtput, hread hbefore,
      hread hlast⟩, bytes, ?_, ?_⟩
  · rw [hbefore.housed.stored?, hbefore.entry]
    rfl
  · rw [hlast.housed.stored?, hlast.entry]
    rfl

theorem paths_again {found found' : Scan.Result}
    (hagain : List.Forall₂ (Scan.Again changed) found.files found'.files) :
    found'.files.map (·.path) = found.files.map (·.path) := by
  have hpaths : List.Forall₂ Eq (found'.files.map (·.path)) (found.files.map (·.path)) := by
    rw [List.forall₂_map_left_iff, List.forall₂_map_right_iff]
    exact hagain.flip.imp fun a b h => h.path
  rwa [List.forall₂_eq_eq_eq] at hpaths

/-- The files that are found again have the same places. -/
theorem placements_again {found found' : Scan.Result}
    (hagain : List.Forall₂ (Scan.Again changed) found.files found'.files) :
    placements r found' = placements r found := by
  have hsources (found : Scan.Result) : (found.files.map fun f => relativeSource r.input f.path) =
      (found.files.map (·.path)).map (relativeSource r.input) := by
    rw [List.map_map]
    rfl
  rw [placements, hsources, paths_again hagain, ← hsources, placements]

/-- What is published stays so when source files are changed and the cache is opened again. -/
theorem Published.edited {scan : Scan.Settings} {file : SourceFile} {p : Layout.Placement} {item : Item}
    {bytes : ByteArray} {s : Shared σ} {g : Files} {opened : Shared τ}
    (h : Published r.output place file p item bytes s) (hp : Layout.IsGoFile p.fileName)
    (hedited : Edited scan changed s.files g) (hfiles : opened.files = g)
    (hhoused : Housed r.output place opened.cache opened.files) :
    Published r.output place file p item bytes opened := by
  refine h.congr hhoused ?_ ?_
  · rw [hfiles, hedited.others _ (not_isSourcePlace_entryPlace place _)]
  · rw [hfiles, hedited.others _ (not_isSourcePlace_target place hp)]

/-- What the cache knows about earlier content of a file does not count for the file. -/
theorem Published.matching_eq_none {file later : SourceFile} {p : Layout.Placement} {item : Item}
    {bytes : ByteArray} {s : Shared σ} (h : Published r.output place file p item bytes s)
    (hpath : later.path = file.path) (hdigest : later.digest ≠ file.digest) :
    Cache.matching later.digest (s.cache.remembers s.files later.path) = none := by
  obtain ⟨content, e, translation, -, hretains, -⟩ := h.content
  rw [hpath, hretains.remembers, Cache.matching, Option.filter_some, if_neg]
  rw [decide_eq_true_iff, hretains.digest]
  exact hdigest.symm

/-- What is published about the files that were found is there when the next run begins. -/
theorem Resumes.of_published {earlier : List Item} {found found' : Scan.Result} {s : Shared σ}
    {g : Files} {opened : Shared τ} (hhoused : Housed r.output place opened.cache opened.files)
    (htold : ∀ a ∈ found.files, ∀ b ∈ found.files, Cache.ToldApart a.path b.path)
    (hpublished : ∀ file p, (file, p) ∈ found.files.zip (placements r found).1 →
      0 < r.conversion.maxAttempts ∧
        ∃ old ∈ earlier, ∃ bytes, Published r.output place file p old bytes s)
    (hedited : Edited r.tools.scan changed s.files g) (hfiles : opened.files = g)
    (hagain : List.Forall₂ (Scan.Again changed) found.files found'.files) :
    Resumes r place changed earlier found' opened := by
  have hknown (later : SourceFile) (p : Layout.Placement)
      (hmem : (later, p) ∈ found'.files.zip (placements r found').1) :
      ∃ file ∈ found.files, Scan.Again changed file later ∧ 0 < r.conversion.maxAttempts ∧
        ∃ old ∈ earlier, ∃ bytes, Published r.output place file p old bytes opened := by
    rw [placements_again hagain] at hmem
    obtain ⟨file, hfile, hlater⟩ := exists_of_mem_zip hagain hmem
    obtain ⟨hpos, old, hold, bytes, hbytes⟩ := hpublished file p hfile
    have hp := (Layout.place_spec _ _).2.2 p (List.of_mem_zip hfile).2
    exact ⟨file, (List.of_mem_zip hfile).1, hlater, hpos, old, hold, bytes,
      hbytes.edited hp hedited hfiles hhoused⟩
  refine ⟨hhoused, fun a ha b hb => ?_, fun file hfile => ?_, fun file p hmem hnot => ?_,
    fun file hfile hchanged => ?_⟩
  · obtain ⟨p, hmem⟩ := exists_place_of_mem r ha
    obtain ⟨q, hmem'⟩ := exists_place_of_mem r hb
    obtain ⟨file, hfile, hlater, -⟩ := hknown a p hmem
    obtain ⟨file', hfile', hlater', -⟩ := hknown b q hmem'
    rw [hlater.path, hlater'.path]
    exact htold file hfile file' hfile'
  · obtain ⟨p, hmem⟩ := exists_place_of_mem r hfile
    obtain ⟨-, -, -, hpos, -⟩ := hknown file p hmem
    exact hpos
  · obtain ⟨kept, -, hlater, -, old, hold, bytes, hbytes⟩ := hknown file p hmem
    have hsame : file = kept := hlater.kept (hlater.path ▸ hnot)
    rw [← hsame] at hbytes
    obtain ⟨content, houtput, -⟩ := hbytes.goFile
    exact ⟨content, old, hold, houtput, bytes, hbytes, hbytes⟩
  · obtain ⟨p, hmem⟩ := exists_place_of_mem r hfile
    obtain ⟨earlierFile, -, hlater, -, old, -, bytes, hbytes⟩ := hknown file p hmem
    obtain ⟨hparses, hdigest, houtline⟩ := hlater.edited (hlater.path ▸ hchanged)
    obtain ⟨o, ho⟩ := houtline
    exact ⟨⟨o, hparses, ho⟩, hbytes.matching_eq_none hlater.path hdigest⟩

/-- After a run that translated all files, the next one asks for the files that were changed in
between and for no other, whatever the order of the steps of the workers is; the others are taken from
the cache, and neither their Go files nor their entries are written again. -/
theorem completes_incremental {service : Service σ} {v : Assessment.Validator}
    {refuses : Layout.Placement → Option Layout.WriteError} {files : Files} {outside : σ}
    {before : Report} {s : Shared σ} (hnames : r.tools.layout.NamesPackages)
    (hbackend : r.tools.cache.backend = .directory) (hforce : r.force = false)
    (hworking : Cache.Working (Shared.openFor r files outside).cache
      (Shared.openFor r files outside).files)
    (hfirst : Completes service v r refuses files outside before s)
    (hall : ∀ item ∈ before.items, statusOf item = .translated)
    (htold : ∀ a ∈ before.items, ∀ b ∈ before.items, Cache.ToldApart a.source.path b.source.path)
    {g : Files} (hedited : Edited r.tools.scan changed s.files g) {service' : Service τ}
    (hgoes : service'.GoesOn) (v' : Assessment.Validator)
    (refuses' : Layout.Placement → Option Layout.WriteError) (outside' : τ) :
    (∃ report last, Completes service'.recorded v' r refuses' g (outside', []) report last) ∧
      ∀ report last, Completes service'.recorded v' r refuses' g (outside', []) report last →
        Incremental r changed before s report last := by
  obtain ⟨place, hhoused⟩ := exists_housed_openFor hbackend hworking
  obtain ⟨found, log, hscan⟩ : ∃ found log, Scan.scan r.tools.scan
      (Shared.openFor r files outside).files r.input = .ok (found, log) := by
    cases hfirst with
    | intro scanned => exact ⟨_, _, scanned⟩
  have hpaths := paths_completes hnames hscan hfirst
  have htoldFound (a : SourceFile) (ha : a ∈ found.files) (b : SourceFile) (hb : b ∈ found.files) :
      Cache.ToldApart a.path b.path := by
    obtain ⟨i, hi, hia⟩ := List.mem_map.1 (hpaths.symm.subset (List.mem_map_of_mem ha))
    obtain ⟨j, hj, hjb⟩ := List.mem_map.1 (hpaths.symm.subset (List.mem_map_of_mem hb))
    rw [← hia, ← hjb]
    exact htold i hi j hj
  obtain ⟨hacts, hpublished⟩ := completes_publishes hnames hhoused hscan htoldFound hfirst hall
  obtain ⟨hlast, -, hwrites⟩ := hacts hhoused
  -- The next run finds the same files, some of them changed.
  obtain ⟨opened, hopened⟩ : ∃ opened : Shared (τ × List Prompt),
      opened = Shared.openFor r g (outside', []) := ⟨_, rfl⟩
  obtain ⟨hfiles, hhoused'⟩ := openFor_of_housed (hlast.edited hedited) hbackend (outside', [])
  rw [← hopened] at hfiles hhoused'
  obtain ⟨found', log', hscan', hagain⟩ := Scan.scan_again hhoused.values.wellFormed
    hedited.wellFormed (hedited.sources.of_writes hwrites) hscan
  rw [← hfiles] at hscan' hhoused'
  have hresumes := Resumes.of_published hhoused' htoldFound hpublished hedited hfiles hagain
  refine ⟨exists_completes _ v' r refuses' (hopened ▸ hscan'), fun report last h => ?_⟩
  obtain ⟨hasked, hkept⟩ := completes_redoes hnames hgoes hforce hopened hscan' hresumes h
  refine ⟨?_, hasked, fun item hitem hnot => (hkept item hitem hnot).reused hlast fun q hq => ?_⟩
  · refine (paths_completes hnames (hopened ▸ hscan') h).trans ?_
    rw [paths_again hagain]
    exact hpaths.symm
  · rw [hfiles, hedited.others q hq]

end Incremental

/-! ### Two files, one of which is changed -/

/-- A tree with two source files, a Go file for each of them, and a cache with nothing in it. -/
def twoSources : Files :=
  treeOf ["w"] [["w"], ["w", "in"], ["w", "out"], ["w", "out", "common"],
      ["w", "out", ".modernize"], ["w", "out", ".modernize", "cache"]]
    [["w", "in", "x.py"], ["w", "in", "y.py"], ["w", "out", "common", "x.go"],
      ["w", "out", "common", "y.go"]]

/-- A run with a cache in a directory, without an index, and of small files only. -/
def cachedRequest : Request where
  input := ⟨"in"⟩
  output := ⟨"out"⟩
  tools := { scan := { maxSize := 8 }, index := { enabled := false } }

/-- The paths of the source files. -/
def twoPaths : List Path := [⟨"/w/in/x.py"⟩, ⟨"/w/in/y.py"⟩]

/-- An empty source file. -/
def emptySource (path : Path) : SourceFile := ⟨path, ⟨#[]⟩, none⟩

/-- An empty file has an outline with nothing in it. -/
theorem ofBytes_empty : Outline.ofBytes ⟨#[]⟩ = .ok {} := by with_unfolding_all rfl

theorem node?_twoSources (name : RawText) :
    twoSources.node? (([("w" : RawText), "out"] ++ cacheNames) ++ [name]) = none := by
  have hentries : ∀ x ∈ twoSources.nodes.entries,
      x.1.dropLast ≠ [("w" : RawText), "out"] ++ cacheNames := by
    decide
  refine Option.eq_none_iff_forall_ne_some.2 fun node hnode => ?_
  rw [Files.node?, if_neg (by simp)] at hnode
  exact hentries _ ((Table.get?_eq_some_iff _).1 hnode) List.dropLast_concat

theorem housed_twoSources : Housed ⟨"out"⟩ ["w", "out"]
    { store := .ok (.inDirectory (cacheDirectory ⟨"out"⟩)) } twoSources := by
  refine ⟨Files.leads_of_find (by decide), rfl, by decide, by decide,
    fun name _ => ?_⟩
  rw [node?_twoSources]
  exact (Option.some_ne_none _).symm

theorem fulfils_constantly :
    (constantly (.ok Programmed.usualAnswer)).Fulfils ({} : Assessment.Validator) := by
  have hchecks (text : String) :
      (({} : Assessment.Validator).checkText text).1 = Go.checkString text := by
    unfold Assessment.Validator.checkText
    dsimp only
  have haccepts {code : String} (h : Conversion.Certified code) :
      ({} : Assessment.Validator).Accepts code := by
    intro module hmodule
    rw [hchecks]
    exact h.valid_retargetString hmodule
  have hnamed : (Reply.ofComplete Programmed.usualAnswer).code =
      Go.retargetString (Reply.ofComplete Programmed.usualAnswer).code "common" := by
    decide
  have hvalid : (Go.checkString (Reply.ofComplete Programmed.usualAnswer).code).valid = true := by
    decide
  have hcommon : Layout.isPackageName "common" = true := by decide
  exact ⟨fun _ => rfl, rfl, fun _ _ =>
    ⟨Programmed.usualAnswer, rfl, haccepts ⟨⟨_, _, hcommon, hnamed⟩, hvalid⟩⟩⟩

/-- What is found in the tree, whatever the size limit. -/
theorem exists_scan_twoSources (s : Scan.Settings) : ∃ found log,
    Scan.scan s twoSources ⟨"in"⟩ = .ok (found, log) ∧ found.files = twoPaths.map emptySource := by
  have hcandidates : Scan.candidates twoSources ⟨"in"⟩ = .ok [⟨"in/x.py"⟩, ⟨"in/y.py"⟩] := by
    decide +kernel
  have hempty (place : List RawText) :
      Scan.found? s place ⟨#[]⟩ = some (emptySource (Files.pathOf place)) :=
    Scan.found?_of_ok (Nat.zero_le _) ofBytes_empty
  have hx : twoSources.find ⟨"in/x.py"⟩ = .ok (["w", "in", "x.py"], .file ⟨#[]⟩) := by decide
  have hy : twoSources.find ⟨"in/y.py"⟩ = .ok (["w", "in", "y.py"], .file ⟨#[]⟩) := by decide
  obtain ⟨found, log, hscan, hfiles⟩ := Scan.exists_scan (s := s) hcandidates (List.cons_ne_nil _ _)
  refine ⟨found, log, hscan, ?_⟩
  simp only [hfiles, List.filterMap_cons, List.filterMap_nil, Scan.toOption_inspect hx,
    Scan.toOption_inspect hy, hempty]
  rfl

/-- By default both Go files go into one module. -/
theorem placements_twoSources {r : Request} {found : Scan.Result} (hinput : r.input = ⟨"in"⟩)
    (hlayout : r.tools.layout = {}) (hfound : found.files = twoPaths.map emptySource) :
    (placements r found).1 = [⟨"common", "x.go"⟩, ⟨"common", "y.go"⟩] := by
  rw [placements, hfound, hinput, hlayout, place_pair _ (by decide)]
  decide +kernel

theorem told_twoPaths : ∀ a ∈ twoPaths, ∀ b ∈ twoPaths, Cache.ToldApart a b := by
  have hkeys : Digest.ofString (Cache.entryKey ⟨"/w/in/x.py"⟩) ≠
      Digest.ofString (Cache.entryKey ⟨"/w/in/y.py"⟩) := by decide +kernel
  simp only [twoPaths, List.forall_mem_cons, Cache.ToldApart, hkeys, hkeys.symm, false_implies,
    implies_true, List.not_mem_nil, and_self]

theorem exists_outline (content : ByteArray) (h : (Outline.ofBytes content).toOption.isSome = true) :
    ∃ o, Outline.ofBytes content = .ok o := by
  cases hparse : Outline.ofBytes content with
  | ok o => exact ⟨o, rfl⟩
  | error e =>
    rw [hparse] at h
    cases h

theorem namesPackages_cachedRequest : cachedRequest.tools.layout.NamesPackages :=
  ⟨by decide, by decide⟩

theorem opened_twoSources :
    (Shared.openFor cachedRequest twoSources ()).files = twoSources ∧
      Housed ⟨"out"⟩ ["w", "out"] (Shared.openFor cachedRequest twoSources ()).cache twoSources :=
  openFor_of_housed (r := cachedRequest) housed_twoSources rfl ()

/-- The first run translates both files. -/
theorem exists_completes_twoSources :
    ∃ before s, Completes (constantly (.ok Programmed.usualAnswer)) {} cachedRequest
        (fun _ => none) twoSources () before s ∧
      (before.items.map (·.source.path)).Perm twoPaths ∧
      (∀ item ∈ before.items, statusOf item = .translated) ∧
      Acts ⟨"out"⟩ ["w", "out"] (fun q => ¬Scan.IsSourcePlace q)
        (Shared.openFor cachedRequest twoSources ()) s := by
  obtain ⟨hfiles, hhoused⟩ := opened_twoSources
  have hnone := (Cache.working_directory hhoused.kept hhoused.values.wellFormed hhoused.values.found
    node?_twoSources).2
  obtain ⟨found, log, hscan, hfound⟩ := exists_scan_twoSources cachedRequest.tools.scan
  rw [← hfiles] at hhoused hscan
  obtain ⟨before, s, hcompletes⟩ := exists_completes (constantly (.ok Programmed.usualAnswer)) {}
    cachedRequest (fun _ => none) hscan
  have hpaths : found.files.map (·.path) = twoPaths := by
    rw [hfound]
    rfl
  have htold (a : SourceFile) (ha : a ∈ found.files) (b : SourceFile) (hb : b ∈ found.files) :
      Cache.ToldApart a.path b.path :=
    told_twoPaths _ (hpaths ▸ List.mem_map_of_mem ha) _ (hpaths ▸ List.mem_map_of_mem hb)
  have hnew (file : SourceFile) (hfile : file ∈ found.files) : (∃ o, file.HasOutline o) ∧
      (Shared.openFor cachedRequest twoSources ()).cache.remembers
        (Shared.openFor cachedRequest twoSources ()).files file.path = none := by
    rw [hfiles]
    refine ⟨?_, hnone _⟩
    rw [hfound] at hfile
    obtain ⟨path, -, rfl⟩ := List.mem_map.1 hfile
    exact ⟨_, rfl, ofBytes_empty⟩
  have hroom (p : Layout.Placement) (hp : p ∈ (placements cachedRequest found).1) :
      Room ⟨"out"⟩ ["w", "out"] p (Shared.openFor cachedRequest twoSources ()) := by
    have hthere : ∀ p ∈ [(⟨"common", "x.go"⟩ : Layout.Placement), ⟨"common", "y.go"⟩],
        twoSources.node? ([("w" : RawText), "out"] ++ [(p.module : RawText)]) = some .directory ∧
          twoSources.node? ([("w" : RawText), "out"] ++ [(p.module : RawText), p.fileName]) =
            some (.file ⟨#[]⟩) := by
      decide
    rw [placements_twoSources rfl rfl hfound] at hp
    obtain ⟨hdirectory, hfile⟩ := hthere p hp
    exact ⟨hhoused, hfiles ▸ hdirectory, _, hfiles ▸ hfile⟩
  have hall := completes_fulfils namesPackages_cachedRequest hhoused hscan htold fulfils_constantly
    (by decide) hnew hroom hcompletes
  have hacts := (completes_publishes namesPackages_cachedRequest hhoused hscan htold hcompletes
    hall).1
  refine ⟨before, s, hcompletes, ?_, hall, hacts⟩
  exact hpaths ▸ paths_completes namesPackages_cachedRequest hscan hcompletes

/-- The digest of an empty file. -/
def emptyDigest : Digest :=
  ⟨"e3b0c44298fc1c149afbf4c8996fb92427ae41e4649b934ca495991b7852b855"⟩

theorem digest_empty : Digest.ofBytes ⟨#[]⟩ = emptyDigest := by decide +kernel

/-- After such a run one of the two files holds something else. -/
theorem edited_twoSources {s : Shared Unit}
    (hacts : Acts ⟨"out"⟩ ["w", "out"] (fun q => ¬Scan.IsSourcePlace q)
      (Shared.openFor cachedRequest twoSources ()) s)
    {scan : Scan.Settings} {content : ByteArray} (hsize : content.size ≤ scan.maxSize)
    (houtline : ∃ o, Outline.ofBytes content = .ok o)
    (hdigest : Digest.ofBytes content ≠ emptyDigest) :
    Edited scan (· = Files.pathOf ["w", "in", "x.py"]) s.files
      (s.files.put ["w", "in", "x.py"] (.file content)) := by
  obtain ⟨hfiles, hhoused⟩ := opened_twoSources
  rw [← hfiles] at hhoused
  obtain ⟨hhoused', -, hwrites⟩ := hacts hhoused
  have hsource : Scan.IsSourcePlace ["w", "in", "x.py"] := ⟨["w", "in"], "x.py", rfl, by decide⟩
  have hthere : twoSources.node? ["w", "in", "x.py"] = some (.file ⟨#[]⟩) := by decide
  have hnode : s.files.node? ["w", "in", "x.py"] = some (.file ⟨#[]⟩) := by
    rw [hwrites.node_eq (not_not.2 hsource) (by rw [hfiles, hthere]; exact Option.some_ne_none _),
      hfiles, hthere]
  rw [← digest_empty] at hdigest
  exact .of_put hhoused'.values.wellFormed hsource hnode (Nat.zero_le _) hsize houtline hdigest

/-- The digests of the keys of two files tell them apart. -/
theorem told_of_perm {items : List Item} (hpaths : (items.map (·.source.path)).Perm twoPaths) :
    ∀ a ∈ items, ∀ b ∈ items, Cache.ToldApart a.source.path b.source.path := fun _ ha _ hb =>
  told_twoPaths _ (hpaths.subset (List.mem_map_of_mem ha)) _ (hpaths.subset (List.mem_map_of_mem hb))

/-- Of two files that were translated one is changed: the next run asks for that one, and takes the
other one from the cache. -/
theorem completes_incremental_edited :
    let service := constantly (.ok Programmed.usualAnswer)
    let changed : Path → Prop := (· = Files.pathOf ["w", "in", "x.py"])
    ∃ before s g, Completes service {} cachedRequest (fun _ => none) twoSources () before s ∧
      (before.items.map (·.source.path)).Perm twoPaths ∧
      (∀ item ∈ before.items, statusOf item = .translated) ∧
      Edited cachedRequest.tools.scan changed s.files g ∧
      ∃ report last,
        Completes service.recorded {} cachedRequest (fun _ => none) g ((), []) report last ∧
          Incremental cachedRequest changed before s report last := by
  intro service changed
  obtain ⟨before, s, hfirst, hpaths, hall, hacts⟩ := exists_completes_twoSources
  obtain ⟨hfiles, hhoused⟩ := opened_twoSources
  rw [← hfiles] at hhoused
  have hedited : Edited cachedRequest.tools.scan changed s.files
      (s.files.put ["w", "in", "x.py"] (.file "x = 1\n".toUTF8)) :=
    edited_twoSources hacts (by decide) (exists_outline _ (by decide +kernel)) (by decide +kernel)
  have hgoes : service.GoesOn := fun _ => rfl
  obtain ⟨⟨report, last, hagain⟩, hincremental⟩ := completes_incremental
    namesPackages_cachedRequest rfl rfl hhoused.working hfirst hall (told_of_perm hpaths) hedited
    hgoes {} (fun _ => none) ()
  exact ⟨before, s, _, hfirst, hpaths, hall, hedited, report, last, hagain,
    hincremental report last hagain⟩

/-- A file that grows beyond the size limit of the run is changed, and still parses, but is not asked
for. -/
theorem completes_fails_incremental :
    let service := constantly (.ok Programmed.usualAnswer)
    ¬∀ (r : Request) (files : Files) (before : Report) (s : Shared Unit) (scan : Scan.Settings)
      (changed : Path → Prop) (g : Files), r.tools.layout.NamesPackages →
      r.tools.cache.backend = .directory → r.force = false →
      Cache.Working (Shared.openFor r files ()).cache (Shared.openFor r files ()).files →
      Completes service {} r (fun _ => none) files () before s →
      (∀ item ∈ before.items, statusOf item = .translated) →
      (∀ a ∈ before.items, ∀ b ∈ before.items, Cache.ToldApart a.source.path b.source.path) →
      Edited scan changed s.files g →
      ∃ report last, Completes service.recorded {} r (fun _ => none) g ((), []) report last ∧
        ∀ item ∈ before.items, changed item.source.path →
          ∃ later ∈ report.items, later.source.path = item.source.path ∧
            .requestSent ∈ later.trace := by
  intro service hclaim
  obtain ⟨before, s, hfirst, hpaths, hall, hacts⟩ := exists_completes_twoSources
  obtain ⟨hfiles, hhoused⟩ := opened_twoSources
  rw [← hfiles] at hhoused
  let changed : Path → Prop := (· = Files.pathOf ["w", "in", "x.py"])
  let g := s.files.put ["w", "in", "x.py"] (.file "x = 1000\n".toUTF8)
  have hedited : Edited {} changed s.files g :=
    edited_twoSources hacts (by decide) (exists_outline _ (by decide +kernel)) (by decide +kernel)
  obtain ⟨report, last, hagain, hasked⟩ := hclaim cachedRequest twoSources before s {} changed g
    namesPackages_cachedRequest rfl rfl hhoused.working hfirst hall (told_of_perm hpaths) hedited
  obtain ⟨item, hitem, hpath⟩ := List.mem_map.1
    (hpaths.symm.subset (by decide : Files.pathOf ["w", "in", "x.py"] ∈ twoPaths))
  obtain ⟨later, hlater, hsame, -⟩ := hasked item hitem hpath
  obtain ⟨found, log, hscan⟩ : ∃ found log, Scan.scan cachedRequest.tools.scan
      (Shared.openFor cachedRequest g ((), [])).files cachedRequest.input = .ok (found, log) := by
    cases hagain with
    | intro scanned => exact ⟨_, _, scanned⟩
  obtain ⟨file, hfile, hfound⟩ := List.mem_map.1
    ((paths_completes namesPackages_cachedRequest hscan hagain).subset
      (List.mem_map_of_mem hlater))
  -- What is found is within the limit, and what the file holds now is not.
  rw [(openFor_of_housed (r := cachedRequest) ((hacts hhoused).1.edited hedited) rfl ((), [])).1]
    at hscan
  obtain ⟨place, -, hnode, hplace, hsize, -⟩ :=
    Scan.exists_place_of_mem hedited.wellFormed hscan hfile
  have hreached := hedited.wellFormed.reached place (hnode ▸ Option.some_ne_none _)
  obtain rfl : place = [("w" : RawText), "in", "x.py"] :=
    Files.pathOf_injective (fun name hname => (hreached.named name hname).1) (by decide)
      (hplace.symm.trans (hfound.trans (hsame.trans hpath)))
  rw [Files.node?_put _ (by decide), if_pos rfl, Option.some_inj, Files.Node.file.injEq] at hnode
  rw [← hnode] at hsize
  exact absurd hsize (by decide)

end Recast.Run
