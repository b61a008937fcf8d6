/-
  Proofs/Run/Passes.lean --- whole runs over a cache in the directory of their output.

  The passes of a run leave such a cache where it is.  The first pass writes to the places of the
  entries (`entered_of_interleave`), and saving the index to that of the index; the second pass writes
  to the entries and Go files of the files that are worked on (`worked_of_interleave`), and the end of
  the run right into the directory of the output.  So no source file is ever written to.
-/
import Recast.Proofs.Run.Counting
import Recast.Proofs.Run.Recorded
import Recast.Proofs.Run.Reusing

set_option autoImplicit false

namespace Recast.Run

open Conversion (Item Translator)

variable {σ : Type} {r : Request} {output : Path} {place : List RawText} {files : Files}

/-! ## Opening -/

/-- A cache that is opened in the directory of the output and works is kept there. -/
theorem exists_housed_openFor {outside : σ} (hbackend : r.tools.cache.backend = .directory)
    (h : Cache.Working (Shared.openFor r files outside).cache
      (Shared.openFor r files outside).files) :
    ∃ place, Housed r.output place (Shared.openFor r files outside).cache
      (Shared.openFor r files outside).files := by
  obtain ⟨store, hstore, hworks⟩ := h
  obtain ⟨hfiles, hkept, hmade⟩ :=
    Cache.openIn_directory (r.network.server r.tools.cache) (stateDirectory r.output) files
  rw [← hbackend] at hfiles hkept hmade
  have hopened : (Shared.openFor r files outside).files =
      (files.makeDirectories (cacheDirectory r.output)).2 := hfiles
  have havailable : (Shared.openFor r files outside).cache.isAvailable = true := by
    unfold Cache.isAvailable
    rw [hstore]
    rfl
  have hkept' : Cache.KeptIn (Shared.openFor r files outside).cache (cacheDirectory r.output) :=
    hkept (hmade havailable)
  have hmade' : files.makeDirectories (cacheDirectory r.output) =
      (.ok (), (Shared.openFor r files outside).files) := Prod.ext (hmade havailable) hopened.symm
  obtain ⟨cachePlace, hleads⟩ :=
    Files.Leads.of_makeDirectories (Path.components_join_ne_nil _ (by decide)) hmade'
  cases hkept'.symm.trans hstore
  obtain ⟨valuePlace, hvalues⟩ := hworks.2 _ rfl
  obtain ⟨statePlace, hstate, rfl⟩ := hleads.of_join (by decide)
  obtain ⟨place, hroot, rfl⟩ := hstate.of_join (by decide)
  cases hleads.unique (Files.leads_of_find hvalues.found)
  refine ⟨place, hroot, hkept', ?_⟩
  rw [List.append_assoc] at hvalues
  exact hvalues

/-- A cache that is in the directory of the output is opened without a change of the tree. -/
theorem openFor_of_housed {c : Cache} (h : Housed r.output place c files)
    (hbackend : r.tools.cache.backend = .directory) (outside : σ) :
    (Shared.openFor r files outside).files = files ∧
      Housed r.output place (Shared.openFor r files outside).cache files := by
  have hmade : files.makeDirectories ((stateDirectory r.output).join "cache") = (.ok (), files) :=
    Files.makeDirectories_of_leads (Files.leads_of_find h.values.found)
  obtain ⟨hfiles, hkept, -⟩ :=
    Cache.openIn_directory (r.network.server r.tools.cache) (stateDirectory r.output) files
  rw [hmade, ← hbackend] at hfiles hkept
  exact ⟨hfiles, h.leads, hkept rfl, h.values⟩

/-! ## Steps of a run -/

theorem acts_begin (found : Scan.Result) (s : Shared σ) (log : Log) {W : List RawText → Prop} :
    Acts output place W s (begin r found (s.say log)) :=
  Neutral.acts ⟨rfl, rfl, rfl⟩

/-- The place of the index. -/
def indexPlace (place : List RawText) : List RawText :=
  place ++ [(".modernize" : RawText)] ++ [(Meaning.Index.fileName : RawText)]

theorem acts_flush {s : Shared σ} (hfiled : FiledIn output s.index) :
    Acts output place (· = indexPlace place) s s.flush := by
  intro hhoused
  refine ⟨(spares_flush hhoused hfiled).housed, by rw [cache_flush], (files_flush s).mono ?_⟩
  rintro q ⟨path, hpath, rfl⟩
  rw [hfiled path hpath, Files.placeOf_join _ _ (by decide), stateDirectory,
    Files.placeOf_join _ _ (by decide), hhoused.placeOf]
  rfl

theorem acts_conclude (service : Service σ) (v : Assessment.Validator) (r : Request)
    (found : Scan.Result) (items : List Item) (s : Shared σ) :
    Acts r.output place (Closing place) s (conclude service v r found items s).2 := by
  intro hhoused
  have hfiles := files_conclude service v r found items s
  rw [hhoused.placeOf] at hfiles
  refine ⟨(spares_conclude service v r found items hhoused).housed, ?_, hfiles⟩
  rw [(writes_conclude service v r found items s).cache]

/-- The first pass writes to the places of the entries. -/
theorem entered_of_interleave {sources : List SourceFile}
    (hnodup : (sources.map (·.path)).Nodup)
    (htold : ∀ a ∈ sources, ∀ b ∈ sources, Cache.ToldApart a.path b.path) {s last : Shared σ}
    {outlines : List (Except String Outline)}
    {post : SourceFile → Except String Outline → Shared σ → Prop}
    (hfirst : Task.Interleave (sources.map Work.analyze) s outlines last)
    (hwork : ∀ file ∈ sources, Enters output place file.path (Work.analyze file) (post file) s) :
    List.Forall₂ (fun file outline => post file outline last) sources outlines ∧
      Acts output place (fun q => ∃ path, q = entryPlace place path) s last := by
  have hagree : sources.Pairwise (Task.Agree
      (fun file => Acts output place fun q => q ≠ entryPlace place file.path :
        SourceFile → Shared σ → _)
      fun file => Acts output place fun q => q = entryPlace place file.path) := by
    refine (List.pairwise_map.1 hnodup).imp_of_mem fun ha hb hne s s' => ?_
    have hapart : entryPlace place _ ≠ entryPlace place _ := entryPlace_ne (htold _ ha _ hb) hne
    exact ⟨fun hguar => hguar.mono fun q hq => hq ▸ hapart,
      fun hguar => hguar.mono fun q hq => hq ▸ hapart.symm⟩
  have htasks : List.Forall₂
      (fun file task => Enters output place file.path task (post file) s) sources
      (sources.map Work.analyze) := by
    rw [List.forall₂_map_right_iff, List.forall₂_same]
    exact hwork
  obtain ⟨hresults, hall⟩ := hfirst.within (fun _ => steady_acts) hagree htasks
  refine ⟨hresults, hall _ steady_acts fun file _ s s' hguar => hguar.mono fun q hq => ?_⟩
  exact ⟨file.path, hq⟩

/-- The second pass writes to the places of the files that are worked on. -/
theorem worked_of_interleave {t : Translator σ}
    {refuses : Layout.Placement → Option Layout.WriteError} {as : List Analyzed}
    (hpaths : as.Pairwise fun a b => a.file.path ≠ b.file.path)
    (htold : ∀ a ∈ as, ∀ b ∈ as, Cache.ToldApart a.file.path b.file.path)
    (hplacements : as.Pairwise fun a b => a.placement ≠ b.placement) {s last : Shared σ}
    {items : List Item} {post : Analyzed → Item → Shared σ → Prop}
    (hsecond : Task.Interleave (as.map (Work.process t output refuses)) s items last)
    (hwork : ∀ a ∈ as, Translates output place a (Work.process t output refuses a) (post a) s) :
    List.Forall₂ (fun a item => post a item last) as items ∧
      Acts output place (fun q => ∃ a ∈ as, Own place a q) s last := by
  have hapart {a b : Analyzed} (htold : Cache.ToldApart a.file.path b.file.path)
      (hpath : a.file.path ≠ b.file.path) (hplacement : a.placement ≠ b.placement)
      {q : List RawText} (ha : Own place a q) : ¬Own place b q := by
    rcases ha with rfl | rfl
    · rintro (heq | heq)
      · exact entryPlace_ne htold hpath heq
      · exact Work.targetPlace_ne_entryPlace _ _ rfl heq.symm
    · rintro (heq | heq)
      · exact Work.targetPlace_ne_entryPlace _ _ rfl heq
      · exact Layout.place_ne_of_ne hplacement place heq
  have hagree : as.Pairwise (Task.Agree
      (fun a => Acts output place fun q => ¬Own place a q : Analyzed → Shared σ → _)
      fun a => Acts output place (Own place a)) := by
    refine (hpaths.and hplacements).imp_of_mem fun ha hb hne s s' => ?_
    exact ⟨fun hguar => hguar.mono fun q => hapart (htold _ ha _ hb) hne.1 hne.2,
      fun hguar => hguar.mono fun q => hapart (htold _ hb _ ha) hne.1.symm hne.2.symm⟩
  have htasks : List.Forall₂ (fun a task => Translates output place a task (post a) s) as
      (as.map (Work.process t output refuses)) := by
    rw [List.forall₂_map_right_iff, List.forall₂_same]
    exact hwork
  obtain ⟨hresults, hall⟩ := hsecond.within (fun _ => steady_acts) hagree htasks
  exact ⟨hresults, hall _ steady_acts fun a ha s s' hguar => hguar.mono fun q hq => ⟨a, ha, hq⟩⟩

/-- The index stays in its file during the first pass. -/
theorem filedIn_of_interleave {found : Scan.Result} {s analyzed : Shared σ}
    (hfiled : FiledIn output s.index) {log : Log} {outlines : List (Except String Outline)}
    (hfirst : Task.Interleave (found.files.map Work.analyze) (begin r found (s.say log)) outlines
      analyzed) : FiledIn output analyzed.index := by
  have hfile : analyzed.index.file = (begin r found (s.say log)).index.file :=
    view_first (fun _ _ _ _ hfile => hfile) hfirst
  obtain ⟨records, hprune, -⟩ := Meaning.Index.prune_spec s.index (found.files.map (·.path))
  have hbegun : (begin r found (s.say log)).index.file = s.index.file := by
    change (s.index.prune _).2.file = _
    rw [hprune]
  intro path hpath
  exact hfiled path (by rw [← hbegun, ← hfile]; exact hpath)

/-- What is known after the first pass, and that the index is saved then. -/
theorem prepared_of_interleave {found : Scan.Result} (hnodup : (found.files.map (·.path)).Nodup)
    (htold : ∀ a ∈ found.files, ∀ b ∈ found.files, Cache.ToldApart a.path b.path)
    {s analyzed : Shared σ} (hfiled : FiledIn output s.index) {log : Log}
    {outlines : List (Except String Outline)}
    {post : SourceFile → Except String Outline → Shared σ → Prop}
    (hfirst : Task.Interleave (found.files.map Work.analyze) (begin r found (s.say log)) outlines
      analyzed)
    (hwork : ∀ file ∈ found.files,
      Enters output place file.path (Work.analyze file) (post file) s) :
    List.Forall₂ (fun file outline => post file outline analyzed) found.files outlines ∧
      Acts output place (fun q => ∃ path, q = entryPlace place path) s analyzed ∧
      Acts output place (· = indexPlace place) analyzed analyzed.flush := by
  obtain ⟨hresults, hacts⟩ := entered_of_interleave hnodup htold hfirst fun file hfile =>
    (hwork file hfile).of_rely steady_acts (acts_begin found s log)
  exact ⟨hresults, steady_acts.trans (acts_begin found s log) hacts,
    acts_flush (filedIn_of_interleave hfiled hfirst)⟩

/-- The report lists the files in another order, with what they were found to be worth. -/
theorem exists_listed (service : Service σ) (v : Assessment.Validator) (r : Request)
    (found : Scan.Result) {items pushed : List Item} (order : pushed.Perm items) (s : Shared σ) :
    ∃ modules, (conclude service v r found pushed s).1.items.Perm (items.map (judge v modules)) := by
  obtain ⟨-, modules, hitems⟩ := exists_items_conclude service v r found pushed s
  refine ⟨modules, ?_⟩
  rw [hitems]
  exact ((List.mergeSort_perm pushed _).trans order).map _

/-! ## Source files -/

open Scan (IsSourcePlace)

theorem not_isSourcePlace_entryPlace (place : List RawText) (path : Path) :
    ¬IsSourcePlace (entryPlace place path) := by
  have hlast : (Cache.keyName (Cache.entryKey path)).toList.getLast? = some 'n' := by
    rw [Cache.keyName, String.toList_append, List.getLast?_append]
    rfl
  exact Scan.not_isSourcePlace hlast (by decide)

theorem not_isSourcePlace_indexPlace (place : List RawText) : ¬IsSourcePlace (indexPlace place) :=
  Scan.not_isSourcePlace rfl (by decide)

theorem Closing.not_isSourcePlace {root q : List RawText} (h : Closing root q) :
    ¬IsSourcePlace q := by
  obtain ⟨name, hname, rfl⟩ := h
  rw [List.mem_cons, List.mem_singleton] at hname
  rcases hname with rfl | rfl
  · exact Scan.not_isSourcePlace rfl (by decide)
  · exact Scan.not_isSourcePlace rfl (by decide)

theorem not_isSourcePlace_target (place : List RawText) {p : Layout.Placement}
    (hp : Layout.IsGoFile p.fileName) :
    ¬IsSourcePlace (place ++ [(p.module : RawText), p.fileName]) := by
  have hplace : place ++ [(p.module : RawText), p.fileName] =
      place ++ [(p.module : RawText)] ++ [(p.fileName : RawText)] := by
    rw [List.append_assoc]
    rfl
  rw [hplace]
  exact Scan.not_isSourcePlace hp.getLast? (by decide)

theorem Own.not_isSourcePlace {a : Analyzed} (ha : Layout.IsGoFile a.placement.fileName)
    {q : List RawText} (h : Own place a q) : ¬IsSourcePlace q := by
  rcases h with rfl | rfl
  · exact not_isSourcePlace_entryPlace place _
  · exact not_isSourcePlace_target place ha

end Recast.Run
