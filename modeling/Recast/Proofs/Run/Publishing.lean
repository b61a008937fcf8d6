/-
  Proofs/Run/Publishing.lean --- what a run leaves for the next one.

  A run that translates a file stores the translation in the cache before it writes the Go file, and
  neither is touched by the work on other files or by the end of the run.  So if all files were
  translated, the next run finds both for each of them, as long as nothing is changed in between
  (`completes_publishes`).
-/
import Recast.Proofs.Run.Passes

set_option autoImplicit false

namespace Recast.Run

open Conversion (Item Translator)

variable {σ τ : Type}

/-! ## Files with a translation -/

/-- What a run leaves for the next one about a file that it translated: bytes in the cache that keep
the translation, and a Go file that holds it. -/
structure Published (output : Path) (place : List RawText) (file : SourceFile)
    (p : Layout.Placement) (item : Item) (bytes : ByteArray) (s : Shared σ) : Prop where
  source : item.source = file
  parses : file.syntaxError = none
  target : item.target = some (Layout.targetPath output p)
  content : ∃ content e translation, item.output = some content ∧
    Retains output place file bytes e s ∧ e.translation = some translation ∧
    Go.retargetString translation.output p.module = content ∧
    s.files.node? (place ++ [(p.module : RawText), p.fileName]) = some (.file content.toUTF8)

namespace Published

variable {output : Path} {place : List RawText} {file : SourceFile} {p : Layout.Placement}
  {item : Item} {bytes : ByteArray} {s : Shared σ} {s' : Shared τ}

theorem housed (h : Published output place file p item bytes s) :
    Housed output place s.cache s.files := by
  obtain ⟨content, e, translation, -, hretains, -⟩ := h.content
  exact hretains.holds.housed

theorem entry (h : Published output place file p item bytes s) :
    s.files.node? (entryPlace place file.path) = some (.file bytes) := by
  obtain ⟨content, e, translation, -, hretains, -⟩ := h.content
  exact hretains.holds.node

theorem goFile (h : Published output place file p item bytes s) :
    ∃ content, item.output = some content ∧
      s.files.node? (place ++ [(p.module : RawText), p.fileName]) = some (.file content.toUTF8) := by
  obtain ⟨content, e, translation, houtput, -, -, -, hnode⟩ := h.content
  exact ⟨content, houtput, hnode⟩

/-- Nothing else about the state of a run matters. -/
theorem congr (h : Published output place file p item bytes s)
    (hhoused : Housed output place s'.cache s'.files)
    (hentry : s'.files.node? (entryPlace place file.path) = s.files.node? (entryPlace place file.path))
    (htarget : s'.files.node? (place ++ [(p.module : RawText), p.fileName]) =
      s.files.node? (place ++ [(p.module : RawText), p.fileName])) :
    Published output place file p item bytes s' := by
  obtain ⟨content, e, translation, houtput, hretains, htranslation, hcode, hnode⟩ := h.content
  exact ⟨h.source, h.parses, h.target, content, e, translation, houtput,
    ⟨⟨hhoused, hentry.trans h.entry⟩, hretains.decoded, hretains.digest, hretains.outline⟩,
    htranslation, hcode, htarget.trans hnode⟩

theorem of_acts {t : Shared σ} (h : Published output place file p item bytes s)
    {W : List RawText → Prop} (hacts : Acts output place W s t)
    (hentry : ¬W (entryPlace place file.path))
    (htarget : ¬W (place ++ [(p.module : RawText), p.fileName])) :
    Published output place file p item bytes t := by
  obtain ⟨hhoused, -, hwrites⟩ := hacts h.housed
  obtain ⟨content, -, hnode⟩ := h.goFile
  refine h.congr hhoused (hwrites.node_eq hentry ?_) (hwrites.node_eq htarget ?_)
  · rw [h.entry]
    exact Option.some_ne_none _
  · rw [hnode]
    exact Option.some_ne_none _

theorem judge (h : Published output place file p item bytes s) (v : Assessment.Validator)
    (modules : Table String Assessment.ModuleCheck) :
    Published output place file p (judge v modules item) bytes s := by
  refine ⟨?_, h.parses, ?_, ?_⟩
  · rw [source_judge]
    exact h.source
  · rw [target_judge]
    exact h.target
  · rw [output_judge]
    exact h.content

/-- A file that was settled with a Go file, and whose translation is stored. -/
theorem exists_of_settled {a : Analyzed} {content : String} (hp : Proper a.placement)
    (hsettled : Settled output a item s) (hparses : a.file.syntaxError = none)
    (htarget : item.target ≠ none) (houtput : item.output = some content)
    (hstocked : Stocked output place a.file a.placement.module content s) :
    ∃ bytes, Published output place a.file a.placement item bytes s := by
  obtain ⟨path, hpath⟩ := Option.ne_none_iff_exists'.1 htarget
  obtain ⟨rfl, written, hwritten, hread⟩ := hsettled.target path hpath
  cases houtput.symm.trans hwritten
  obtain ⟨bytes, e, translation, hretains, htranslation, hcode⟩ := hstocked
  exact ⟨bytes, hsettled.source, hparses, hpath, content, e, translation, houtput, hretains,
    htranslation, hcode, (Layout.read_of_leads hretains.holds.housed.values.wellFormed
      hretains.holds.housed.leads ⟨hp.module, hp.file.isName⟩).1 hread⟩

end Published

/-! ## Runs that translate everything -/

section First

variable {service : Service σ} {v : Assessment.Validator} {r : Request}
  {refuses : Layout.Placement → Option Layout.WriteError} {files : Files} {outside : σ}
  {report : Report} {last : Shared σ} {place : List RawText}

/-- A file that was translated has its translation in the cache. -/
def Stores (output : Path) (place : List RawText) (a : Analyzed) (attempts : Nat) (item : Item)
    (s : Shared σ) : Prop :=
  statusOf item = .translated → (∃ o, a.outline = .ok o) ∧ 0 < attempts ∧
    ∃ content, item.output = some content ∧
      Stocked output place a.file a.placement.module content s

namespace Work

/-- What the work on a file leaves, whether it was parsed or not. -/
theorem translates_any (t : Translator σ) {output : Path} {a : Analyzed} {s : Shared σ}
    (hp : Proper a.placement) (hmodule : Layout.isPackageName a.placement.module = true)
    (hretains : ∀ o, a.outline = .ok o → ∃ bytes e, Retains output place a.file bytes e s) :
    Translates output place a (process t output refuses a)
      (Stores output place a t.settings.maxAttempts) s := by
  cases houtline : a.outline with
  | error reason =>
    have hfailed : Plain (process t output refuses a) fun item => statusOf item = .parseFailed := by
      unfold process
      rw [houtline]
      exact .act fun _ => ⟨⟨rfl, rfl, rfl⟩, rfl⟩
    refine (hfailed.within s).mono fun item s' hitem htranslated => ?_
    cases hitem.1.symm.trans htranslated
  | ok o =>
    obtain ⟨bytes, e, hentry⟩ := hretains o houtline
    refine (translates_process t refuses hp hmodule houtline hentry).mono ?_
    exact fun item s' hprocessed htranslated => ⟨⟨o, houtline⟩, hprocessed.stored htranslated⟩

end Work

/-- The places that neither saving the index nor the end of a run writes to. -/
theorem entryPlace_ne_indexPlace (place : List RawText) (path : Path) :
    entryPlace place path ≠ indexPlace place := by
  intro heq
  have hlength := congrArg List.length heq
  simp [entryPlace, indexPlace, cacheNames] at hlength

theorem target_ne_indexPlace (place : List RawText) {p : Layout.Placement} (hp : Proper p) :
    place ++ [(p.module : RawText), p.fileName] ≠ indexPlace place := by
  intro heq
  rw [indexPlace, List.append_assoc] at heq
  have hname := RawText.ofString_inj.1
    (List.cons.inj (List.cons.inj (List.append_cancel_left heq)).2).1
  have hlast := hp.file.getLast?
  rw [hname] at hlast
  revert hlast
  decide

theorem not_closing_entryPlace (place : List RawText) (path : Path) :
    ¬Closing place (entryPlace place path) := by
  rintro ⟨name, -, heq⟩
  have hlength := congrArg List.length heq
  simp [entryPlace, cacheNames] at hlength

theorem not_closing_target (place : List RawText) (p : Layout.Placement) :
    ¬Closing place (place ++ [(p.module : RawText), p.fileName]) := by
  rintro ⟨name, -, heq⟩
  exact absurd (congrArg List.length (List.append_cancel_left heq)) (by simp)

/-- The report of a run is about the files that were found. -/
theorem paths_completes (hnames : r.tools.layout.NamesPackages) {found : Scan.Result} {log : Log}
    (hscan : Scan.scan r.tools.scan (Shared.openFor r files outside).files r.input = .ok (found, log))
    (h : Completes service v r refuses files outside report last) :
    (report.items.map (·.source.path)).Perm (found.files.map (·.path)) := by
  cases h with
  | @intro found' log' outlines analyzed worked items pushed scanned first second order =>
  cases hscan.symm.trans scanned
  have hlength : outlines.length = found.files.length := by
    rw [first.length_eq, List.length_map]
  have hsettled := settled_of_interleave hnames hlength _ refuses second
  obtain ⟨modules, hlisted⟩ := exists_listed service v r found order worked
  have hpaths := hlisted.map (·.source.path)
  rw [List.map_map] at hpaths
  simp only [Function.comp_def, source_judge] at hpaths
  rw [paths_settled hsettled] at hpaths
  rw [← files_assign r found hlength, List.map_map]
  exact hpaths

section Zip

variable {α β γ : Type} {R : α → β → Prop} {as : List α} {bs : List β} {a : α} {b : β} {p : γ}

/-- What belongs together in lists of which one is in step with another one. -/
theorem exists_of_mem_zip (h : List.Forall₂ R as bs) {ps : List γ} (hmem : (b, p) ∈ bs.zip ps) :
    ∃ a, (a, p) ∈ as.zip ps ∧ R a b := by
  induction h generalizing ps with
  | nil => exact absurd hmem List.not_mem_nil
  | @cons a b' as bs hab _ ih =>
    cases ps with
    | nil => exact absurd hmem List.not_mem_nil
    | cons p' ps =>
      rw [List.zip_cons_cons, List.mem_cons] at hmem
      rcases hmem with heq | hmem
      · cases heq
        exact ⟨a, .head _, hab⟩
      · obtain ⟨a', ha', hab'⟩ := ih hmem
        exact ⟨a', .tail _ ha', hab'⟩

theorem of_mem_zip_zip (h : List.Forall₂ R as bs) {ps : List γ}
    (hmem : (a, p, b) ∈ as.zip (ps.zip bs)) : R a b := by
  induction h generalizing ps with
  | nil => exact absurd hmem List.not_mem_nil
  | @cons a' b' as bs hab _ ih =>
    cases ps with
    | nil => exact absurd hmem List.not_mem_nil
    | cons p' ps =>
      rw [List.zip_cons_cons, List.zip_cons_cons, List.mem_cons] at hmem
      rcases hmem with heq | hmem
      · cases heq
        exact hab
      · exact ih hmem

end Zip

section Assign

variable {found : Scan.Result} {outlines : List (Except String Outline)} {a : Analyzed}

/-- What the first pass has found out about a file is known when it is worked on. -/
theorem of_mem_assign {R : SourceFile → Except String Outline → Prop}
    (h : List.Forall₂ R found.files outlines) (ha : a ∈ assign r found outlines) :
    R a.file a.outline := by
  obtain ⟨⟨file, placement, outline⟩, hmem, rfl⟩ := List.mem_map.1 ha
  exact of_mem_zip_zip h hmem

theorem mem_places_of_mem_assign (hlength : outlines.length = found.files.length)
    (ha : a ∈ assign r found outlines) :
    (a.file, a.placement) ∈ found.files.zip (placements r found).1 := by
  rw [← places_assign r found hlength]
  exact List.mem_map_of_mem ha

theorem file_mem_of_mem_assign (hlength : outlines.length = found.files.length)
    (ha : a ∈ assign r found outlines) : a.file ∈ found.files :=
  (List.of_mem_zip (mem_places_of_mem_assign hlength ha)).1

theorem exists_mem_assign (hlength : outlines.length = found.files.length) {file : SourceFile}
    {p : Layout.Placement} (hmem : (file, p) ∈ found.files.zip (placements r found).1) :
    ∃ a ∈ assign r found outlines, a.file = file ∧ a.placement = p := by
  rw [← places_assign r found hlength] at hmem
  obtain ⟨a, ha, heq⟩ := List.mem_map.1 hmem
  cases heq
  exact ⟨a, ha, rfl, rfl⟩

/-- The files that are worked on are different ones. -/
theorem pairwise_paths_assign (hlength : outlines.length = found.files.length)
    (hnodup : (found.files.map (·.path)).Nodup) :
    (assign r found outlines).Pairwise fun a b => a.file.path ≠ b.file.path := by
  rw [← files_assign r found hlength, List.map_map] at hnodup
  exact List.pairwise_map.1 hnodup

/-- The files that are found are worked on side by side. -/
theorem worked_assign {t : Translator σ} {refuses : Layout.Placement → Option Layout.WriteError}
    {place : List RawText} (hlength : outlines.length = found.files.length)
    (hnodup : (found.files.map (·.path)).Nodup)
    (htold : ∀ a ∈ found.files, ∀ b ∈ found.files, Cache.ToldApart a.path b.path)
    {s last : Shared σ} {items : List Item} {post : Analyzed → Item → Shared σ → Prop}
    (hsecond : Task.Interleave ((assign r found outlines).map (Work.process t r.output refuses)) s
      items last)
    (hwork : ∀ a ∈ assign r found outlines,
      Translates r.output place a (Work.process t r.output refuses a) (post a) s) :
    List.Forall₂ (fun a item => post a item last) (assign r found outlines) items ∧
      Acts r.output place (fun q => ∃ a ∈ assign r found outlines, Own place a q) s last :=
  worked_of_interleave (pairwise_paths_assign hlength hnodup)
    (fun _ ha _ hb => htold _ (file_mem_of_mem_assign hlength ha) _
      (file_mem_of_mem_assign hlength hb))
    (pairwise_assign hlength) hsecond hwork

end Assign

/-- A run that translated all files leaves its translations in the cache and in the Go files, and has
written to no source file. -/
theorem completes_publishes (hnames : r.tools.layout.NamesPackages) {found : Scan.Result} {log : Log}
    (hhoused : Housed r.output place (Shared.openFor r files outside).cache
      (Shared.openFor r files outside).files)
    (hscan : Scan.scan r.tools.scan (Shared.openFor r files outside).files r.input = .ok (found, log))
    (htold : ∀ a ∈ found.files, ∀ b ∈ found.files, Cache.ToldApart a.path b.path)
    (h : Completes service v r refuses files outside report last)
    (hall : ∀ item ∈ report.items, statusOf item = .translated) :
    Acts r.output place (fun q => ¬Scan.IsSourcePlace q) (Shared.openFor r files outside) last ∧
      ∀ file p, (file, p) ∈ found.files.zip (placements r found).1 →
        0 < r.conversion.maxAttempts ∧
          ∃ item ∈ report.items, ∃ bytes, Published r.output place file p item bytes last := by
  cases h with
  | @intro found' log' outlines analyzed worked items pushed scanned first second order =>
  cases hscan.symm.trans scanned
  have hlength : outlines.length = found.files.length := by
    rw [first.length_eq, List.length_map]
  have hnodup := Scan.nodup_paths hhoused.values.wellFormed scanned
  obtain ⟨hlearned, hentered, hsaved⟩ := prepared_of_interleave hnodup htold
    (filedIn_openIn _ _ _ _) first fun file _ => Work.learns_analyze file hhoused
  have hproper (a : Analyzed) (ha : a ∈ assign r found outlines) := proper_assign hnames hlength ha
  have hretains (a : Analyzed) (ha : a ∈ assign r found outlines) (o : Outline)
      (ho : a.outline = .ok o) : a.file.syntaxError = none ∧
        ∃ bytes e, Retains r.output place a.file bytes e analyzed.flush := by
    obtain ⟨hparses, bytes, e, hretains, -⟩ := (of_mem_assign hlearned ha).entry o ho
    exact ⟨hparses, bytes, e, hretains.of_acts hsaved (entryPlace_ne_indexPlace place _)⟩
  have hwork (a : Analyzed) (ha : a ∈ assign r found outlines) :
      Translates r.output place a (Work.process ⟨service, v, analyzed.flush.index, r.conversion⟩
        r.output refuses a) (Stores r.output place a r.conversion.maxAttempts) analyzed.flush :=
    Work.translates_any _ (hproper a ha) (isPackageName_assign hnames hlength ha)
      fun o ho => (hretains a ha o ho).2
  obtain ⟨hworked, hwritten⟩ := worked_assign hlength hnodup htold second hwork
  have hsettled := settled_of_interleave hnames hlength _ refuses second
  have hconcluded : Acts r.output place (Closing place) worked
      (conclude service v r found pushed worked).2 := acts_conclude service v r found pushed worked
  obtain ⟨modules, hlisted⟩ := exists_listed service v r found order worked
  refine ⟨?_, fun file p hmem => ?_⟩
  · refine steady_acts.trans (hentered.mono ?_) (steady_acts.trans (hsaved.mono ?_)
      (steady_acts.trans (hwritten.mono ?_) (hconcluded.mono fun q => Closing.not_isSourcePlace)))
    · rintro q ⟨path, rfl⟩
      exact not_isSourcePlace_entryPlace place path
    · rintro q rfl
      exact not_isSourcePlace_indexPlace place
    · rintro q ⟨a, ha, hq⟩
      exact hq.not_isSourcePlace (hproper a ha).file
  · obtain ⟨a, ha, rfl, rfl⟩ := exists_mem_assign hlength hmem
    have hboth := List.Forall₂.mp (fun _ _ => And.intro) hworked hsettled
    obtain ⟨item, hitem, hstores, hends⟩ := Task.exists_of_mem_forall₂ hboth.flip ha
    have hjudged : judge v modules item ∈ (conclude service v r found pushed worked).1.items :=
      hlisted.symm.subset (List.mem_map_of_mem hitem)
    have hstatus := hall _ hjudged
    rw [statusOf_judge] at hstatus
    obtain ⟨⟨o, ho⟩, hpos, content, houtput, hstocked⟩ := hstores hstatus
    obtain ⟨bytes, hpublished⟩ := Published.exists_of_settled (hproper a ha) hends
      (hretains a ha o ho).1 (of_statusOf_translated hstatus).1 houtput hstocked
    exact ⟨hpos, _, hjudged, bytes, (hpublished.of_acts hconcluded (not_closing_entryPlace place _)
      (not_closing_target place _)).judge v modules⟩

end First

end Recast.Run
