/-
  Proofs/Run/Scheduling.lean --- the order of the workers' steps makes no difference.

  In front of the first pass the cache and the index say of each file that was found only what they
  should (`Independent.intact`), so the steps of that pass can be exchanged.  Saving the index
  depends on what is shared alone, and after that the steps of the second pass can be exchanged as
  well.  As the report lists the files in the order of their paths, two runs of one request end in
  the same way (`completes_same`).  They need not if a Go file has its place where a module has its
  directory, if a record stands under the key of another file, or if the path of the output climbs
  and leads nowhere before the first Go file is written (`completes_fails_same`).
-/
import Recast.Proofs.Run.Incremental
import Recast.Proofs.Run.Passes
import Recast.Proofs.Run.Processing
import Recast.Proofs.Run.Publishing
import Recast.Proofs.Run.Recorded

set_option autoImplicit false

namespace Recast

/-- Settings whose modules are names of directories. -/
structure Layout.Settings.NamesDirectories (s : Layout.Settings) : Prop where
  fallback : Path.IsName s.defaultModule
  rules : ∀ r ∈ s.rules, Path.IsName r.module

namespace Run

open Cache (Memo)
open Conversion (Item Translator)
open Meaning.Index (recordKey)

variable {σ : Type} {r : Request} {files : Files} {outside : σ} {found : Scan.Result} {log : Log}

/-! ## What the first pass begins with -/

/-- An outline that a file has, or that the cache has for it. -/
def Known (opened : Shared σ) (file : SourceFile) (o : Outline) : Prop :=
  file.HasOutline o ∨ (opened.cache.outline? opened.files file.path file.digest).1 = some o

/-- A cache and an index in which different files have nothing to do with each other: the cache does
not fail, the vectors of the index have one length, digests tell the keys of the files apart, and no
record stands under the key of one file and is about another one. -/
structure Independent (opened : Shared σ) (sources : List SourceFile) : Prop where
  steady : Cache.Steady opened.cache opened.files
  uniform : ∃ length, opened.index.Uniform length
  entries : ∀ a ∈ sources, ∀ b ∈ sources, Cache.ToldApart a.path b.path
  records : ∀ a ∈ sources, ∀ b ∈ sources, ∀ key, Analysis.HasKey (Known opened a) a.path key →
    Analysis.HasKey (Known opened b) b.path key → a.path = b.path
  owned : opened.index.Owned (sources.map (·.path))

/-- An output directory that is there once the cache is opened, if its path climbs. -/
def Grounded (r : Request) (opened : Shared σ) : Prop :=
  .up ∈ r.output.components → ∃ place, opened.files.Leads r.output place

/-- A cache that does not fail is kept in the directory of the output, or not in files. -/
theorem served_openFor (hfiles : files.WellFormed)
    (hgrounded : Grounded r (Shared.openFor r files outside))
    (hsteady : Cache.Steady (Shared.openFor r files outside).cache
      (Shared.openFor r files outside).files) :
    Served r.output (Shared.openFor r files outside).cache
      (Shared.openFor r files outside).files := by
  refine ⟨⟨wellFormed_openFor r hfiles outside, hgrounded⟩, ?_⟩
  rcases hsteady with ⟨reason, hreason⟩ | hworking
  · exact .inr fun s hs => by cases hreason.symm.trans hs
  · by_cases hbackend : r.tools.cache.backend = .directory
    · exact .inl (exists_housed_openFor hbackend hworking)
    · obtain ⟨c, log, hopen, hmemory⟩ :=
        Cache.openIn_of_ne_directory hbackend (r.network.server r.tools.cache) r.stateDirectory
      have hstore : (Shared.openFor r files outside).cache.store = c.store :=
        congrArg (·.1.store) (hopen files)
      obtain ⟨s, hs, hworks⟩ := hworking
      refine .inr fun s' hs' => ?_
      cases hs.symm.trans hs'
      exact ⟨hworks.1, hmemory s (hstore.symm.trans hs)⟩

/-- Files that are found are told apart by their paths, however these are spelled. -/
theorem path_eq_of_same {s : Scan.Settings} (hfiles : files.WellFormed) {input : Path}
    (hscan : Scan.scan s files input = .ok (found, log)) {a b : SourceFile} (ha : a ∈ found.files)
    (hb : b ∈ found.files) (hsame : a.path.same b.path = true) : a.path = b.path := by
  obtain ⟨place, -, hnode, hpath, -⟩ := Scan.exists_place_of_mem hfiles hscan ha
  obtain ⟨place', -, hnode', hpath', -⟩ := Scan.exists_place_of_mem hfiles hscan hb
  have hnames {q : List RawText} {content : ByteArray} (h : files.node? q = some (.file content)) :
      ∀ name ∈ q, Path.IsName name :=
    fun name hname => ((hfiles.reached q (h ▸ Option.some_ne_none _)).named name hname).1
  rw [Path.same_iff, hpath, hpath', Files.components_pathOf (hnames hnode),
    Files.components_pathOf (hnames hnode')] at hsame
  have hinjective : Function.Injective Path.Component.normal := fun x y hxy => by cases hxy; rfl
  rw [hpath, hpath', (List.map_inj_right hinjective).1 (List.cons.inj hsame).2]

section Prune

variable {ix : Meaning.Index} {length : Nat} {keep : List Path}

theorem uniform_prune (h : ix.Uniform length) : (ix.prune keep).2.Uniform length := by
  rw [ix.prune_eq_without]
  exact h.without _

theorem owned_prune {paths : List Path} (h : ix.Owned paths) : (ix.prune keep).2.Owned paths := by
  rw [ix.prune_eq_without]
  exact fun path hpath other hother hne record hget =>
    h path hpath other hother hne record (Meaning.Index.get?_without.1 hget).1

end Prune

namespace Independent

variable {opened : Shared σ} {sources : List SourceFile}

theorem keyed (h : Independent opened found.files) {s : Scan.Settings} (hfiles : files.WellFormed)
    {input : Path} (hscan : Scan.scan s files input = .ok (found, log)) :
    Analysis.Keyed (Known opened) found.files where
  once := Scan.nodup_paths hfiles hscan
  paths _ ha _ hb := path_eq_of_same hfiles hscan ha hb
  entries := h.entries
  records := h.records

/-- What is shared is intact when the first pass begins. -/
theorem intact (h : Independent (Shared.openFor r files outside) found.files)
    (hfiles : files.WellFormed) (hgrounded : Grounded r (Shared.openFor r files outside))
    (log : Log) :
    Analysis.Intact r.output (Known (Shared.openFor r files outside)) found.files
      (begin r found ((Shared.openFor r files outside).say log)).stock := by
  obtain ⟨length, huniform⟩ := h.uniform
  refine ⟨served_openFor hfiles hgrounded h.steady, ⟨length, uniform_prune huniform⟩,
    owned_prune h.owned,
    fun file hfile e he => ⟨Cache.fits_of_remembers he, fun hdigest o ho => .inr ?_⟩⟩
  change (Shared.openFor r files outside).cache.remembers
    (Shared.openFor r files outside).files file.path = some e at he
  rw [Cache.fst_outline?, he, Cache.matching, Option.filter_some, if_pos (decide_eq_true hdigest)]
  exact ho

end Independent

/-! ## Between the passes -/

/-- What is left when the index is saved does not depend on the service or on what was said. -/
theorem stock_flush {s s' : Shared σ} (h : s'.stock = s.stock) :
    s'.flush.stock = s.flush.stock := by
  obtain ⟨cache, index, files, outside, log⟩ := s
  obtain ⟨cache', index', files', outside', log'⟩ := s'
  cases h
  unfold Shared.flush
  dsimp only
  obtain ⟨result, flushed⟩ := index.flush files
  cases result <;> rfl

theorem index_eq_of_stock {s s' : Shared σ} (h : s'.stock = s.stock) : s'.index = s.index :=
  congrArg Stock.index h

/-- The cache still does not fail when the index has been saved. -/
theorem intact_flush {output : Path} {s : Shared σ} (h : Served output s.cache s.files)
    (hfiled : FiledIn output s.index) : Processing.Intact output s.flush.stock := by
  refine ⟨h.outputs.writes (files_flush s), h.kept.imp ?_ fun hunfiled => ?_⟩
  · exact fun ⟨place, hhoused⟩ => ⟨place, (spares_flush hhoused hfiled).housed⟩
  · change Unfiled s.flush.cache
    rw [cache_flush]
    exact hunfiled

/-! ## The end of a run -/

theorem describe_same {s s' : Shared σ} (items : List Item) (h : s'.stock = s.stock) :
    (describe r items s').1 = (describe r items s).1 ∧
      (describe r items s').2.stock = (describe r items s).2.stock := by
  obtain ⟨cache, index, files, outside, log⟩ := s
  obtain ⟨cache', index', files', outside', log'⟩ := s'
  cases h
  unfold describe
  dsimp only
  split
  · exact ⟨rfl, rfl⟩
  · obtain ⟨result, written⟩ := Layout.ensureModuleFile r.tools.layout files r.output
    cases result <;> exact ⟨rfl, rfl⟩

/-- A run that is not cancelled ends in a way that depends on its sorted files and on what counts of
what is shared. -/
theorem conclude_same {service : Service σ} (hgoes : service.GoesOn) (v : Assessment.Validator)
    {items items' : List Item}
    (hitems : (items'.mergeSort fun a b => a.source.path.le b.source.path) =
      items.mergeSort fun a b => a.source.path.le b.source.path) {s s' : Shared σ}
    (h : s'.stock = s.stock) :
    (conclude service v r found items' s').1 = (conclude service v r found items s).1 ∧
      (conclude service v r found items' s').2.stock =
        (conclude service v r found items s).2.stock := by
  obtain ⟨hproblems, hstock⟩ :=
    describe_same (r := r) (items.mergeSort fun a b => a.source.path.le b.source.path) h
  unfold conclude
  rw [hitems]
  dsimp only
  generalize describe r _ s = described at *
  generalize describe r _ s' = described' at *
  obtain ⟨problems, cache, index, files, outside, log⟩ := described
  obtain ⟨problems', cache', index', files', outside', log'⟩ := described'
  cases hproblems
  cases hstock
  dsimp only [Shared.say]
  rw [hgoes, hgoes, hgoes, hgoes]
  exact ⟨rfl, rfl⟩

theorem pairwise_sorted (items : List Item) :
    (items.mergeSort fun a b => a.source.path.le b.source.path).Pairwise
      fun a b => a.source.path.le b.source.path = true := by
  have htrans (a b c : Item) (h : a.source.path.le b.source.path = true)
      (h' : b.source.path.le c.source.path = true) : a.source.path.le c.source.path = true :=
    Path.le_trans h h'
  exact List.pairwise_mergeSort htrans (fun a b => Path.le_total a.source.path b.source.path) _

/-- Files with different paths have one order. -/
theorem mergeSort_eq {items items' : List Item} (hperm : items'.Perm items)
    (hnodup : (items.map (·.source.path)).Nodup)
    (hpaths : ∀ a ∈ items, ∀ b ∈ items, a.source.path.same b.source.path = true →
      a.source.path = b.source.path) :
    (items'.mergeSort fun a b => a.source.path.le b.source.path) =
      items.mergeSort fun a b => a.source.path.le b.source.path := by
  have hsort := List.mergeSort_perm items fun a b => a.source.path.le b.source.path
  have hsort' := List.mergeSort_perm items' fun a b => a.source.path.le b.source.path
  refine List.Perm.eq_of_pairwise (fun a b ha hb hle hle' => ?_) (pairwise_sorted items')
    (pairwise_sorted items)
    ((hsort'.trans hperm).trans hsort.symm)
  have ha := (hsort'.trans hperm).subset ha
  have hb := hsort.subset hb
  exact List.inj_on_of_nodup_map hnodup ha hb (hpaths a ha b hb (Path.same_of_le hle hle'))

/-! ## Whole runs -/

section Second

variable {known : SourceFile → Outline → Prop} {outlines : List (Except String Outline)}

/-- The files have places and entries of their own. -/
theorem distinct_assign (hkeyed : Analysis.Keyed known found.files)
    (hlength : outlines.length = found.files.length)
    (hproper : ∀ a ∈ assign r found outlines, Proper a.placement) :
    (assign r found outlines).Pairwise Processing.Distinct := by
  refine ((pairwise_paths_assign hlength hkeyed.once).and (pairwise_assign hlength)).imp_of_mem
    fun {a b} ha hb hne => ?_
  exact ⟨hne.1, hkeyed.entries _ (file_mem_of_mem_assign hlength ha) _
    (file_mem_of_mem_assign hlength hb), hne.2, hproper a ha, hproper b hb⟩

/-- The report lists what became of the files in the same order, however that was gathered. -/
theorem sorted_of_interleave (hkeyed : Analysis.Keyed known found.files)
    (hlength : outlines.length = found.files.length)
    (hproper : ∀ a ∈ assign r found outlines, Proper a.placement) {t : Translator σ}
    {refuses : Layout.Placement → Option Layout.WriteError} {s worked : Shared σ}
    {items pushed : List Item}
    (second : Task.Interleave ((assign r found outlines).map (Work.process t r.output refuses)) s
      items worked) (order : pushed.Perm items) :
    (pushed.mergeSort fun a b => a.source.path.le b.source.path) =
      items.mergeSort fun a b => a.source.path.le b.source.path := by
  have hpaths : items.map (·.source.path) = found.files.map (·.path) := by
    rw [paths_settled (settled_of_proper hproper hlength t refuses second),
      ← files_assign r found hlength, List.map_map]
    rfl
  have hfile (item : Item) (hitem : item ∈ items) :
      ∃ file ∈ found.files, file.path = item.source.path :=
    List.mem_map.1 (hpaths ▸ List.mem_map_of_mem hitem)
  refine mergeSort_eq order (hpaths ▸ hkeyed.once) fun a ha b hb hsame => ?_
  obtain ⟨file, hfound, hpath⟩ := hfile a ha
  obtain ⟨file', hfound', hpath'⟩ := hfile b hb
  rw [← hpath, ← hpath'] at hsame ⊢
  exact hkeyed.paths file hfound file' hfound' hsame

end Second

/-- In every order of the steps of the workers a run that is not cancelled leaves the same tree, the
same cache and the same index, and makes the same report. -/
theorem completes_same {service : Service σ} {v : Assessment.Validator}
    {refuses : Layout.Placement → Option Layout.WriteError} {report report' : Report}
    {last last' : Shared σ} (hnames : r.tools.layout.NamesDirectories)
    (hservice : service.Determined) (hgoes : service.GoesOn) (hfiles : files.WellFormed)
    (hgrounded : Grounded r (Shared.openFor r files outside))
    (hscan : Scan.scan r.tools.scan (Shared.openFor r files outside).files r.input =
      .ok (found, log))
    (hindependent : Independent (Shared.openFor r files outside) found.files)
    (h : Completes service v r refuses files outside report last)
    (h' : Completes service v r refuses files outside report' last') :
    report' = report ∧ last'.files = last.files ∧ last'.cache = last.cache ∧
      last'.index = last.index := by
  have hkeyed := hindependent.keyed (wellFormed_openFor r hfiles outside) hscan
  cases h with
  | @intro _ _ outlines analyzed worked items pushed scanned first second order =>
  cases h' with
  | @intro _ _ outlines' analyzed' worked' items' pushed' scanned' first' second' order' =>
  cases hscan.symm.trans scanned
  cases hscan.symm.trans scanned'
  obtain ⟨hintact, hsame⟩ := analyzed_same hkeyed (fun _ _ _ ho => .inl ho)
    (hindependent.intact hfiles hgrounded _) first
  obtain ⟨houtlines, hanalyzed⟩ := hsame rfl first'
  have hlength : outlines.length = found.files.length := by
    rw [first.length_eq, List.length_map]
  -- Both second passes work with the same index on the same files.
  have hflushed := stock_flush hanalyzed
  rw [houtlines, index_eq_of_stock hflushed] at second'
  have hfiled := filedIn_of_interleave (filedIn_openIn _ _ _ _) first
  have hproper (a : Analyzed) (ha : a ∈ assign r found outlines) : Proper a.placement :=
    proper_of_isName (fun _ hp => Layout.forall_module (P := fun name => Path.IsName name)
      hnames.fallback hnames.rules hp) hlength ha
  obtain ⟨hitems, hworked⟩ := processed_same (distinct_assign hkeyed hlength hproper) hproper
    hservice hgoes (intact_flush hintact.served hfiled) second hflushed second'
  have hsorted := sorted_of_interleave hkeyed hlength hproper second order
  have hsorted' := sorted_of_interleave hkeyed hlength hproper second' order'
  rw [hitems] at hsorted'
  obtain ⟨hreport, hstock⟩ := conclude_same hgoes v (hsorted'.trans hsorted.symm) hworked
  exact ⟨hreport, congrArg Stock.files hstock, congrArg Stock.cache hstock,
    congrArg Stock.index hstock⟩

/-- A first pass can be continued to the end of the run, which keeps the index. -/
theorem exists_completes_index (service : Service σ) (v : Assessment.Validator)
    (hscan : Scan.scan r.tools.scan (Shared.openFor r files outside).files r.input =
      .ok (found, log)) {outlines : List (Except String Outline)} {analyzed : Shared σ}
    (hfirst : Task.Interleave (found.files.map Work.analyze)
      (begin r found ((Shared.openFor r files outside).say (log ++ [announcement r found])))
      outlines analyzed)
    {place : List RawText} (hhoused : Housed r.output place analyzed.cache analyzed.files) :
    ∃ report last, Completes service v r (fun _ => none) files outside report last ∧
      last.index = analyzed.index := by
  have hfiled := filedIn_of_interleave (filedIn_openIn _ _ _ _) hfirst
  have hlength : outlines.length = found.files.length := by
    rw [hfirst.length_eq, List.length_map]
  have hsecond := Task.interleave_runAll ((assign r found outlines).map
    (Work.process ⟨service, v, analyzed.flush.index, r.conversion⟩ r.output fun _ => none))
    analyzed.flush
  rw [runAll_process] at hsecond
  have hfades : Fades [] analyzed.flush (processAll
      ⟨service, v, analyzed.flush.index, r.conversion⟩ r.output (assign r found outlines)
        analyzed.flush).2 := by
    refine fades_processAll _ _ (fun a ha => ⟨fun _ hf => absurd hf List.not_mem_nil, ?_⟩)
      (spares_flush hhoused hfiled).housed.steady.placed
    exact (Layout.place_spec _ _).2.2 _ (List.of_mem_zip (mem_places_of_mem_assign hlength ha)).2
  refine ⟨_, _, .intro hscan hfirst hsecond (.refl _), ?_⟩
  rw [(writes_conclude service v r found _ _).index, hfades.index, index_flush]

/-- An index that is kept begins with the records in its file. -/
theorem index_openFor (r : Request) (files : Files) (outside : σ)
    (henabled : r.tools.index.enabled = true) (hembedder : r.tools.index.embedder = .hashing)
    (hpersist : r.tools.index.persist = true) :
    (Shared.openFor r files outside).index =
      { enabled := true
        embedder := .hashing r.tools.index.dimension
        records := (Meaning.Records.load (Shared.openFor r files outside).files
          (indexPath r.output) (Meaning.embeddingName r.tools.index.dimension)).1
        file := some (indexPath r.output) } := by
  change (Meaning.Index.openIn r.tools.index (r.network.client r.tools.index)
    (stateDirectory r.output) (Shared.openFor r files outside).files).1 = _
  unfold Meaning.Index.openIn Meaning.Index.embedderOf
  rw [henabled, hembedder, hpersist]
  rfl

theorem load_of_decode? {files : Files} {path : Path} {space : String} {bytes : ByteArray}
    {records : Meaning.Records} (hread : files.read path = .ok bytes)
    (hdecode : Meaning.Records.decode? bytes = some records) (hspace : records.space = space) :
    Meaning.Records.load files path space = (records, []) := by
  unfold Meaning.Records.load
  rw [hread]
  dsimp only
  rw [hdecode]
  exact if_pos hspace

/-! ### Two files that are translated -/

/-- The index is empty when it is opened. -/
theorem records_spelled_twoSources :
    (Shared.openFor (spelled "in") twoSources ()).index.records.items = ∅ := by
  have hread : (twoSources.read (indexPath ⟨"out"⟩)).toOption = none := by decide
  rw [index_openFor _ _ _ rfl rfl rfl,
    (openFor_of_housed (r := spelled "in") housed_twoSources rfl ()).1]
  unfold Meaning.Records.load
  split
  · rfl
  · next content hcontent =>
    change twoSources.read (indexPath ⟨"out"⟩) = .ok content at hcontent
    rw [hcontent] at hread
    cases hread

/-- The keys of two empty files are told apart. -/
theorem path_eq_of_hasKey {known : SourceFile → Outline → Prop}
    (hknown : ∀ path o, known (emptySource path) o → Outline.ofBytes ⟨#[]⟩ = .ok o) {key : String} :
    ∀ a ∈ twoPaths, ∀ b ∈ twoPaths, Analysis.HasKey (known (emptySource a)) a key →
      Analysis.HasKey (known (emptySource b)) b key → a = b := by
  -- An empty file has a record about itself and no other.
  have hkey {path : Path} (h : Analysis.HasKey (known (emptySource path)) path key) :
      key = recordKey .file path "" := by
    rcases h with rfl | ⟨o, ho, d, hd, rfl⟩
    · rfl
    · cases (hknown path o ho).symm.trans ofBytes_empty
      cases List.mem_singleton.1 hd
      rfl
  have hapart : recordKey .file ⟨"/w/in/x.py"⟩ "" ≠ recordKey .file ⟨"/w/in/y.py"⟩ "" := by
    decide +kernel
  simp only [twoPaths, List.mem_cons, List.not_mem_nil, or_false]
  rintro a (rfl | rfl) b (rfl | rfl) h h'
  · rfl
  · exact absurd ((hkey h).symm.trans (hkey h')) hapart
  · exact absurd ((hkey h').symm.trans (hkey h)) hapart
  · rfl

theorem independent_twoSources {found : Scan.Result}
    (hfound : found.files = twoPaths.map emptySource) :
    Independent (Shared.openFor (spelled "in") twoSources ()) found.files := by
  obtain ⟨hfiles, hhoused⟩ := openFor_of_housed (r := spelled "in") housed_twoSources rfl ()
  have hnone := (Cache.working_directory hhoused.kept hhoused.values.wellFormed hhoused.values.found
    node?_twoSources).2
  have hknown (path : Path) (o : Outline)
      (h : Known (Shared.openFor (spelled "in") twoSources ()) (emptySource path) o) :
      Outline.ofBytes ⟨#[]⟩ = .ok o := by
    rcases h with h | h
    · exact h.2
    · rw [Cache.fst_outline?, hfiles, hnone] at h
      cases h
  have hget (key : String) :
      (Shared.openFor (spelled "in") twoSources ()).index.records.items.get? key = none := by
    rw [records_spelled_twoSources]
    rfl
  refine ⟨hfiles ▸ hhoused.steady, ⟨256, fun text vector h => ?_, ?_⟩, ?_, ?_, ?_⟩
  · cases h
    exact Meaning.length_embed 256 text
  · rw [records_spelled_twoSources]
    exact fun e he => absurd he List.not_mem_nil
  · rw [hfound]
    simp only [List.forall_mem_map]
    exact told_twoPaths
  · rw [hfound]
    simp only [List.forall_mem_map]
    exact fun a ha b hb key => path_eq_of_hasKey hknown a ha b hb
  · intro path hpath other hother hne record hrecord
    cases (hget _).symm.trans hrecord

/-- Two files that are translated, in whatever order, are translated in the same way. -/
theorem completes_same_twoSources :
    let service := constantly (.ok Programmed.usualAnswer)
    ∃ report last, Completes service {} (spelled "in") (fun _ => none) twoSources () report last ∧
      ∀ report' last',
        Completes service {} (spelled "in") (fun _ => none) twoSources () report' last' →
          report' = report ∧ last'.files = last.files ∧ last'.cache = last.cache ∧
            last'.index = last.index := by
  intro service
  obtain ⟨found, log, hscan, hfound⟩ := exists_scan_twoSources {}
  have hopened := (openFor_of_housed (r := spelled "in") housed_twoSources rfl ()).1
  rw [← hopened] at hscan
  obtain ⟨report, last, h⟩ := exists_completes service {} (spelled "in") (fun _ => none) hscan
  refine ⟨report, last, h, fun report' last' h' => ?_⟩
  exact completes_same ⟨by decide, by decide⟩ ⟨fun _ _ _ => rfl, fun _ _ _ => rfl⟩ (fun _ => rfl)
    housed_twoSources.values.wellFormed (fun hup => absurd hup (by decide)) hscan
    (independent_twoSources hfound) h h'

/-! ### Orders that make a difference -/

/-- A run that ends in different ways in two orders of the steps of the workers, although the store
works and the vectors of the index have one length. -/
structure Racing (service : Service Unit) (r : Request) (files : Files) : Prop where
  wellFormed : files.WellFormed
  working : Cache.Working (Shared.openFor r files ()).cache (Shared.openFor r files ()).files
  uniform : ∃ length, (Shared.openFor r files ()).index.Uniform length
  differ : ∃ report last report' last',
    Completes service {} r (fun _ => none) files () report last ∧
      Completes service {} r (fun _ => none) files () report' last' ∧
        ¬(report' = report ∧ last'.files = last.files ∧ last'.cache = last.cache ∧
          last'.index = last.index)

/-- A service that never answers. -/
def unavailable : Service Unit := constantly (.error (.service "unavailable"))

/-! #### Two empty files -/

namespace Either

/-- What is found. -/
def scanned (r : Request) : Scan.Result × Log :=
  (Scan.scan r.tools.scan (Shared.openFor r twoSources ()).files r.input).toOption.getD ({}, [])

/-- What is shared when the first pass begins. -/
def begun (r : Request) : Shared Unit :=
  begin r (scanned r).1 ((Shared.openFor r twoSources ()).say
    ((scanned r).2 ++ [announcement r (scanned r).1]))

/-- What is left of the first pass. -/
def analyzed (r : Request) : List (Except String Outline) × Shared Unit :=
  analyzeAll (twoPaths.map emptySource) (begun r)

/-- Translates the file with a number in the list of what is found. -/
def translate (r : Request) (number : Nat) (place : Layout.Placement) : Task (Shared Unit) Item :=
  Work.process ⟨unavailable, {}, (analyzed r).2.flush.index, r.conversion⟩ r.output
    (fun _ => none) ⟨emptySource (twoPaths.getD number default), place,
      (analyzed r).1.getD number (.error "")⟩

/-- Why a file could not be written. -/
def reasons (item : Item) : Path × Option String := (item.source.path, item.failure)

/-- Stores in memory leave the tree what it is. -/
theorem files_scanned {r : Request} (hinput : r.input = ⟨"in"⟩)
    (hopened : (Shared.openFor r twoSources ()).files = twoSources) :
    (scanned r).1.files = twoPaths.map emptySource := by
  obtain ⟨found, log, hscan, hfound⟩ := exists_scan_twoSources r.tools.scan
  rw [scanned, hopened, hinput, hscan]
  exact hfound

section Either

variable {p q : Layout.Placement} (hfiles : (scanned r).1.files = twoPaths.map emptySource)

include hfiles

theorem scan_eq : Scan.scan r.tools.scan (Shared.openFor r twoSources ()).files r.input =
    .ok ((scanned r).1, (scanned r).2) := by
  unfold scanned at hfiles ⊢
  cases hscan : Scan.scan r.tools.scan (Shared.openFor r twoSources ()).files r.input with
  | ok found => rfl
  | error e =>
    rw [hscan] at hfiles
    cases hfiles

theorem second_eq (hplaces : (placements r (scanned r).1).1 = [p, q]) :
    (assign r (scanned r).1 (analyzed r).1).map
      (Work.process ⟨unavailable, {}, (analyzed r).2.flush.index, r.conversion⟩ r.output
        fun _ => none) = [translate r 0 p, translate r 1 q] := by
  rw [assign, hplaces, hfiles]
  rfl

/-- The second pass can go on to the end of the run, which leaves directories and Go files what they
are, and reports why files could not be written. -/
theorem exists_completes (hplaces : (placements r (scanned r).1).1 = [p, q]) {items : List Item}
    {worked : Shared Unit}
    (h : Task.Interleave [translate r 0 p, translate r 1 q] (analyzed r).2.flush items worked) :
    ∃ report last, Completes unavailable {} r (fun _ => none) twoSources () report last ∧
      worked.files.Writes Cache.Outside last.files ∧
      (report.items.map reasons).Perm (items.map reasons) := by
  have hfirst := Task.interleave_runAll ((scanned r).1.files.map Work.analyze) (begun r)
  rw [runAll_analyze] at hfirst
  rw [← second_eq hfiles hplaces, analyzed, ← hfiles] at h
  refine ⟨_, _, .intro (scan_eq hfiles) hfirst h (.refl _), (writes_conclude _ _ _ _ _ _).files, ?_⟩
  obtain ⟨modules, hlisted⟩ := exists_listed unavailable {} r (scanned r).1 (.refl items) worked
  have hjudge (item : Item) : reasons (judge {} modules item) = reasons item := by
    unfold judge
    split <;> rfl
  have hperm := hlisted.map reasons
  rw [List.map_map] at hperm
  simp only [Function.comp_def, hjudge] at hperm
  exact hperm

end Either

end Either

/-! #### A directory in the place of a Go file -/

/-- A request that puts the Go file of `x.py` into a directory where the Go file of `y.py` has its
place. -/
def entangled : Request where
  input := ⟨"in"⟩
  output := ⟨"out"⟩
  force := true
  tools := { cache := { backend := .memory }, index := { enabled := false },
             layout := { rules := [⟨["x"], "m/y.go"⟩], defaultModule := "m" },
             requests := { maxRetries := 0 } }

namespace Entangled

open Either (analyzed scanned translate)

theorem files_scanned : (scanned entangled).1.files = twoPaths.map emptySource :=
  Either.files_scanned rfl rfl

theorem placements_scanned : (placements entangled (scanned entangled).1).1 =
    [⟨"m/y.go", "x.go"⟩, ⟨"m", "y.go"⟩] := by
  rw [placements, files_scanned, place_pair _ (by decide)]
  decide +kernel

/-- Translates the file whose module has its directory in the place of the other Go file. -/
def inner : Task (Shared Unit) Item := translate entangled 0 ⟨"m/y.go", "x.go"⟩

/-- Translates the file whose Go file has its place there. -/
def outer : Task (Shared Unit) Item := translate entangled 1 ⟨"m", "y.go"⟩

/-- What is translated first takes the place, as a directory or as a Go file. -/
theorem differ : ∃ report last report' last',
    Completes unavailable {} entangled (fun _ => none) twoSources () report last ∧
      Completes unavailable {} entangled (fun _ => none) twoSources () report' last' ∧
        last'.files ≠ last.files := by
  obtain ⟨report, last, hcompletes, hwrites, -⟩ :=
    Either.exists_completes files_scanned placements_scanned
      (Task.interleave_runAll [inner, outer] (analyzed entangled).2.flush)
  obtain ⟨report', last', hcompletes', hwrites', -⟩ :=
    Either.exists_completes files_scanned placements_scanned
      (Task.interleave_swapped inner outer (analyzed entangled).2.flush)
  refine ⟨report, last, report', last', hcompletes, hcompletes', fun heq => ?_⟩
  have hdirectory : (Task.runAll [inner, outer] (analyzed entangled).2.flush).2.files.node?
      ["w", "out", "m", "y.go"] = some .directory := by decide +kernel
  have hfile : (inner.run (outer.run (analyzed entangled).2.flush).2).2.files.node?
      ["w", "out", "m", "y.go"] ∉ [none, some .directory] := by decide +kernel
  have hlast := hwrites.directory hdirectory
  rw [← heq] at hlast
  rcases hwrites'.node ["w", "out", "m", "y.go"] with hsame | ⟨hnone, -⟩ | ⟨-, -, _, hwritten⟩
  · exact hfile (by simp [← hsame, hlast])
  · exact hfile (by simp [hnone])
  · cases hlast.symm.trans hwritten

end Entangled

/-! #### An output that climbs out of a directory -/

/-- A request whose output leads through a directory that is missing, and back to a source file. -/
def climbing : Request where
  input := ⟨"in"⟩
  output := ⟨"new/../in/x.py"⟩
  force := true
  tools := { cache := { backend := .memory }, index := { enabled := false },
             requests := { maxRetries := 0 } }

namespace Climbing

open Either (analyzed scanned translate)

theorem files_scanned : (scanned climbing).1.files = twoPaths.map emptySource :=
  Either.files_scanned rfl rfl

/-- Translates the first file. -/
def first : Task (Shared Unit) Item := translate climbing 0 ⟨"common", "x.go"⟩

/-- Translates the second file. -/
def second : Task (Shared Unit) Item := translate climbing 1 ⟨"common", "y.go"⟩

/-- The first file that is written makes the directory on the way, and fails where a file is; then the
other one fails below that file. -/
theorem differ : ∃ report last report' last',
    Completes unavailable {} climbing (fun _ => none) twoSources () report last ∧
      Completes unavailable {} climbing (fun _ => none) twoSources () report' last' ∧
        report' ≠ report := by
  obtain ⟨report, last, hcompletes, -, hreasons⟩ :=
    Either.exists_completes files_scanned (placements_twoSources rfl rfl files_scanned)
      (Task.interleave_runAll [first, second] (analyzed climbing).2.flush)
  obtain ⟨report', last', hcompletes', -, hreasons'⟩ :=
    Either.exists_completes files_scanned (placements_twoSources rfl rfl files_scanned)
      (Task.interleave_swapped first second (analyzed climbing).2.flush)
  refine ⟨report, last, report', last', hcompletes, hcompletes', fun heq => ?_⟩
  have hsame := (hreasons.symm.trans (heq ▸ hreasons')).subset (List.mem_map_of_mem (.head _))
  revert hsame
  decide +kernel

end Climbing

/-! #### A record under the key of another file -/

section Misfiled

variable {s : Shared σ} {a b : SourceFile} {record : Meaning.Record}

theorem analyze_of_broken {reason : String} (hbroken : b.syntaxError = some reason) (s : Shared σ) :
    (s.analyze b).2 = { s with index := (s.index.removeFile b.path).2 } := by
  unfold Shared.analyze
  rw [hbroken]
  rfl

theorem fileMeaning?_removeFile_of_get? {ix : Meaning.Index} {path other : Path}
    (hrecord : ix.records.items.get? (recordKey .file path "") = some record)
    (habout : record.payload.sourcePath.same other = true) :
    (ix.removeFile other).2.fileMeaning? path = none := by
  rw [Meaning.Index.fileMeaning?, Option.map_eq_none_iff, Meaning.Records.get?,
    Option.map_eq_none_iff, Option.eq_none_iff_forall_ne_some]
  intro kept hkept
  obtain ⟨hget, hapart⟩ := Meaning.Index.get?_removeFile.1 hkept
  cases hrecord.symm.trans hget
  cases habout.symm.trans hapart

/-- A record under the key of a file that the cache knows, about one that does not parse, is dropped
with the latter.  If that happens late, the index has lost the former. -/
theorem fileMeaning?_analyzeAll_of_get? {length dimension : Nat} {o : Outline} {reason : String}
    (huniform : s.index.Uniform length) (henabled : s.index.enabled = true)
    (hembedder : s.index.embedder = .hashing dimension) (hparses : a.syntaxError = none)
    (hknown : Memo.outline? a.digest (s.memo? a.path) = some o)
    (hbroken : b.syntaxError = some reason)
    (hrecord : s.index.records.items.get? (recordKey .file a.path "") = some record)
    (habout : record.payload.sourcePath.same b.path = true) :
    (analyzeAll [a, b] s).2.index.fileMeaning? a.path = none ∧
      (analyzeAll [b, a] s).2.index.fileMeaning? a.path ≠ none := by
  have hthere : s.index.fileMeaning? a.path ≠ none := by
    rw [Meaning.Index.fileMeaning?, Meaning.Records.get?, hrecord]
    exact Option.some_ne_none _
  refine ⟨?_, ?_⟩
  · change ((s.analyze a).2.analyze b).2.index.fileMeaning? a.path = none
    have hsame : (s.analyze a).2.index = s.index :=
      (s.analyze_cases a).1.trans (indexAfter_of_known hparses hknown hthere)
    rw [analyze_of_broken hbroken]
    exact fileMeaning?_removeFile_of_get? (hsame ▸ hrecord) habout
  · change ((s.analyze b).2.analyze a).2.index.fileMeaning? a.path ≠ none
    rw [analyze_of_broken hbroken, (Shared.analyze_cases a _).1]
    exact fileMeaning?_indexAfter (huniform.removeFile b.path) henabled hembedder hparses hknown

/-- Of two files that are found either one can be analyzed first, and the run keeps the index. -/
theorem exists_completes_either (service : Service σ) (v : Assessment.Validator)
    {place : List RawText} (hscan : Scan.scan r.tools.scan (Shared.openFor r files outside).files
      r.input = .ok (found, log)) (hfound : found.files = [a, b])
    (hhoused : Housed r.output place (Shared.openFor r files outside).cache
      (Shared.openFor r files outside).files) :
    ∃ s : Shared σ, s = begin r found ((Shared.openFor r files outside).say
        (log ++ [announcement r found])) ∧
      ∃ report last report' last', Completes service v r (fun _ => none) files outside report last ∧
        Completes service v r (fun _ => none) files outside report' last' ∧
          last.index = (analyzeAll [a, b] s).2.index ∧
          last'.index = (analyzeAll [b, a] s).2.index := by
  refine ⟨_, rfl, ?_⟩
  generalize hbegun : begin r found ((Shared.openFor r files outside).say
    (log ++ [announcement r found])) = s
  have hcompletes (sources : List SourceFile) {outlines : List (Except String Outline)}
      (h : Task.Interleave ([a, b].map Work.analyze) s outlines (analyzeAll sources s).2) :
      ∃ report last, Completes service v r (fun _ => none) files outside report last ∧
        last.index = (analyzeAll sources s).2.index := by
    rw [← hfound, ← hbegun] at h
    rw [← hbegun]
    exact exists_completes_index service v hscan h (housed_analyzeAll sources hhoused)
  have hfirst := Task.interleave_runAll ([a, b].map Work.analyze) s
  have hsecond := Task.interleave_swapped (Work.analyze a) (Work.analyze b) s
  rw [runAll_analyze] at hfirst
  rw [Work.run_analyze, Work.run_analyze] at hsecond
  obtain ⟨report, last, h, hindex⟩ := hcompletes [a, b] hfirst
  obtain ⟨report', last', h', hindex'⟩ := hcompletes [b, a] hsecond
  exact ⟨report, last, report', last', h, h', hindex, hindex'⟩

/-- A run that finds such a record can lose the file that the cache knows, and can keep it. -/
theorem exists_completes_of_get? {service : Service σ} {v : Assessment.Validator}
    {place : List RawText} {length dimension : Nat} {o : Outline} {reason : String}
    (hscan : Scan.scan r.tools.scan (Shared.openFor r files outside).files r.input =
      .ok (found, log)) (hfound : found.files = [a, b])
    (hhoused : Housed r.output place (Shared.openFor r files outside).cache
      (Shared.openFor r files outside).files)
    (huniform : (Shared.openFor r files outside).index.Uniform length)
    (henabled : (Shared.openFor r files outside).index.enabled = true)
    (hembedder : (Shared.openFor r files outside).index.embedder = .hashing dimension)
    (hparses : a.syntaxError = none)
    (hknown : Memo.outline? a.digest ((Shared.openFor r files outside).memo? a.path) = some o)
    (hbroken : b.syntaxError = some reason)
    (hrecord : (Shared.openFor r files outside).index.records.items.get?
      (recordKey .file a.path "") = some record)
    (habout : record.payload.sourcePath.same b.path = true) :
    ∃ report last report' last', Completes service v r (fun _ => none) files outside report last ∧
      Completes service v r (fun _ => none) files outside report' last' ∧
        last'.index ≠ last.index := by
  obtain ⟨s, hbegun, report, last, report', last', h, h', hindex, hindex'⟩ :=
    exists_completes_either service v hscan hfound hhoused
  refine ⟨report, last, report', last', h, h', fun heq => ?_⟩
  rw [hindex, hindex'] at heq
  -- The record is still there when the first pass begins, for the file that it is about was found.
  obtain ⟨items, hprune, hitems⟩ := Meaning.Index.prune_spec
    (Shared.openFor r files outside).index (found.files.map (·.path))
  have hindexed : s.index = { (Shared.openFor r files outside).index with
      records := { (Shared.openFor r files outside).index.records with items } } := by
    rw [hbegun]
    exact hprune
  have hthere : s.index.records.items.get? (recordKey .file a.path "") = some record := by
    rw [hindexed]
    refine (hitems _ _).2 ⟨hrecord, List.any_eq_true.2 ⟨b.path, ?_, habout⟩⟩
    rw [hfound]
    exact .tail _ (.head _)
  have huniform' : s.index.Uniform length := by
    rw [hindexed, ← hprune]
    exact uniform_prune huniform
  have henabled' : s.index.enabled = true := by rwa [hindexed]
  have hembedder' : s.index.embedder = .hashing dimension := by rwa [hindexed]
  have hknown' : Memo.outline? a.digest (s.memo? a.path) = some o := hbegun ▸ hknown
  obtain ⟨hlost, hkept⟩ := fileMeaning?_analyzeAll_of_get? huniform' henabled' hembedder' hparses
    hknown' hbroken hthere habout
  exact hkept (heq ▸ hlost)

end Misfiled

/-- A request with an index of vectors of length one. -/
def shortRequest : Request where
  input := ⟨"in"⟩
  output := ⟨"out"⟩
  tools := { index := { dimension := 1 } }

namespace Misfiled

/-- An empty file. -/
def empty : SourceFile := emptySource ⟨"/w/in/x.py"⟩

/-- A file that does not parse. -/
def broken : SourceFile := ⟨⟨"/w/in/y.py"⟩, "(".toUTF8, some "syntax error"⟩

/-- What a record says about the file that does not parse. -/
def payload : Meaning.Payload := { meaning := "", subject := .file, sourcePath := broken.path }

/-- An index that has the record under a key. -/
def soleRecord (key : String) : Json := .object
  [("embedder", .string (Meaning.embeddingName 1)),
   ("points", .object [(key,
      .object [("vector", .ofList Json.ofNat [1]), ("payload", payload.toJson)])])]

/-- The index that has the record under the key of the empty file. -/
def saveFile : ByteArray :=
  ((soleRecord (recordKey .file empty.path "")).render Decimal.render).toUTF8

/-- The two files, and the index. -/
def saved : Files :=
  (twoSources.put ["w", "in", "y.py"] (.file broken.content)).put
    (indexPlace ["w", "out"]) (.file saveFile)

/-- What the cache remembers about the empty file. -/
def entry : Cache.Entry where
  digest := empty.digest
  outline := (Outline.ofBytes empty.content).toOption

/-- The two files, the index and the cache. -/
def tree : Files :=
  saved.put (entryPlace ["w", "out"] empty.path) (.file (Cache.Entry.encode entry))

theorem reads_soleRecord (key : String) :
    Json.Reader.Reads Decimal.render Json.Reader.maxDepth (soleRecord key)
      (some (soleRecord key)) := by
  have hpayload : Json.Reader.Reads Decimal.render (Json.Reader.maxDepth - 3) payload.toJson
      (some payload.toJson) := by
    refine Json.Reader.reads_members _ ?_
    simp only [List.mem_cons, List.not_mem_nil, or_false, forall_eq_or_imp, forall_eq]
    exact ⟨Json.Reader.reads_string _ _, Json.Reader.reads_string _ _, Json.Reader.reads_string _ _,
      Json.Reader.reads_ofOption _ nofun, Json.Reader.reads_members _ nofun⟩
  refine Json.Reader.reads_members _ ?_
  simp only [List.mem_cons, List.not_mem_nil, or_false, forall_eq_or_imp, forall_eq]
  refine ⟨Json.Reader.reads_string _ _, Json.Reader.reads_members _ ?_⟩
  simp only [List.mem_cons, List.not_mem_nil, or_false, forall_eq]
  refine Json.Reader.reads_members _ ?_
  simp only [List.mem_cons, List.not_mem_nil, or_false, forall_eq_or_imp, forall_eq]
  refine ⟨Json.Reader.reads_ofList fun n hn => Json.Reader.reads_nat _ ?_, hpayload⟩
  rw [List.mem_singleton.1 hn]
  decide

theorem decode_soleRecord (key : String) : ∃ vector,
    Meaning.Records.decode? ((soleRecord key).render Decimal.render).toUTF8 =
      some ⟨Meaning.embeddingName 1, .ofList [(key, ⟨vector, payload⟩)]⟩ ∧ vector.length = 1 := by
  have hdecode : Meaning.Records.decode? ((soleRecord key).render Decimal.render).toUTF8 =
      Meaning.Records.ofJson? (soleRecord key) := by
    rw [Meaning.Records.decode?, Text.Utf8.decode?_toUTF8]
    simp only [Option.bind_eq_bind, Option.bind_some]
    rw [Json.Reader.parse?_render (reads_soleRecord key), Option.bind_some]
  have hpath : payload.sourcePath.text = "/w/in/y.py" := RawText.text_ofString _
  conv_rhs at hdecode =>
    unfold soleRecord Meaning.Payload.toJson
    rw [hpath]
  exact ⟨_, hdecode.trans rfl, rfl⟩

theorem housed_saved : Housed ⟨"out"⟩ ["w", "out"]
    { store := .ok (.inDirectory (cacheDirectory ⟨"out"⟩)) } saved := by
  refine ⟨Files.leads_of_find (by decide), rfl, by decide, by decide,
    fun name _ hdirectory => ?_⟩
  have hentries : ∀ x ∈ saved.nodes.entries, x.2 = .directory →
      x.1.dropLast ≠ [("w" : RawText), "out"] ++ cacheNames := by
    decide
  rw [Files.node?, if_neg (by simp)] at hdirectory
  exact hentries _ ((Table.get?_eq_some_iff _).1 hdirectory) rfl List.dropLast_concat

theorem housed_tree : Housed ⟨"out"⟩ ["w", "out"]
    { store := .ok (.inDirectory (cacheDirectory ⟨"out"⟩)) } tree :=
  (housed_saved.keep empty.path entry).2.1

theorem opened_tree : (Shared.openFor shortRequest tree ()).files = tree ∧
    Housed ⟨"out"⟩ ["w", "out"] (Shared.openFor shortRequest tree ()).cache tree :=
  openFor_of_housed (r := shortRequest) housed_tree rfl ()

theorem read_tree : tree.read (indexPath ⟨"out"⟩) = .ok saveFile := by
  have hwrites : saved.Writes (· = entryPlace ["w", "out"] empty.path) tree :=
    (housed_saved.keep empty.path entry).2.2
  have htarget : saved.target (indexPath ⟨"out"⟩) = .ok (indexPlace ["w", "out"]) := by
    decide
  have hthere : saved.node? (indexPlace ["w", "out"]) = some (.file saveFile) := by
    rw [saved, Files.node?_put _ (by decide), if_pos rfl]
  have hapart := (entryPlace_ne_indexPlace ["w", "out"] empty.path).symm
  have hname : Files.namesDirectory (indexPath ⟨"out"⟩) = false := by decide
  refine Files.read_eq_ok.2 ⟨indexPlace ["w", "out"], hwrites.target htarget, ?_, hname⟩
  exact (hwrites.node_eq hapart (hthere ▸ Option.some_ne_none _)).trans hthere

/-- The index begins with the record. -/
theorem index_tree : ∃ vector, vector.length = 1 ∧ (Shared.openFor shortRequest tree ()).index =
    { enabled := true
      embedder := .hashing 1
      records := ⟨Meaning.embeddingName 1,
        .ofList [(recordKey .file empty.path "", ⟨vector, payload⟩)]⟩
      file := some (indexPath ⟨"out"⟩) } := by
  obtain ⟨vector, hdecode, hlength⟩ := decode_soleRecord (recordKey .file empty.path "")
  refine ⟨vector, hlength, ?_⟩
  have hload : Meaning.Records.load tree (indexPath shortRequest.output)
      (Meaning.embeddingName shortRequest.tools.index.dimension) = _ :=
    load_of_decode? read_tree hdecode rfl
  rw [index_openFor shortRequest tree () rfl rfl rfl, opened_tree.1, hload]
  rfl

theorem outline_entry : entry.outline = some {} := congrArg Except.toOption ofBytes_empty

theorem fits_entry : entry.Fits where
  outline o ho := by
    cases outline_entry.symm.trans ho
    exact Outline.fits_of_ofBytes ofBytes_empty
  translation := nofun

theorem remembers_tree : (Shared.openFor shortRequest tree ()).cache.remembers tree empty.path =
    some entry := by
  rw [opened_tree.2.remembers, tree, Files.node?_put _ (by simp [entryPlace]), if_pos rfl,
    Cache.contentOf?, Option.bind_some]
  exact Cache.Entry.decode?_encode fits_entry

theorem exists_scan_tree : ∃ found log,
    Scan.scan {} (Shared.openFor shortRequest tree ()).files ⟨"in"⟩ = .ok (found, log) ∧
      found.files = [empty, broken] := by
  have hsaved : (Scan.scan {} saved ⟨"in"⟩).toOption.map (·.1.files) = some [empty, broken] := by
    decide +kernel
  cases hscan : Scan.scan {} saved ⟨"in"⟩ with
  | error e =>
    rw [hscan] at hsaved
    cases hsaved
  | ok found =>
    rw [hscan] at hsaved
    have hnode : saved.node? (entryPlace ["w", "out"] empty.path) ≠ some .directory :=
      housed_saved.values.values _ (Cache.cutName_keyName _)
    obtain ⟨found', log', hscan', hfound⟩ := Scan.scan_sameSources housed_saved.values.wellFormed
      housed_tree.values.wellFormed (.put (not_isSourcePlace_entryPlace _ _) hnode _) hscan
    rw [opened_tree.1]
    exact ⟨found', log', hscan', hfound.trans (Option.some.inj hsaved)⟩

theorem uniform_tree : (Shared.openFor shortRequest tree ()).index.Uniform 1 := by
  obtain ⟨vector, hlength, hindex⟩ := index_tree
  rw [hindex]
  refine ⟨fun text vector h => ?_, fun e he => ?_⟩
  · cases h
    exact Meaning.length_embed 1 text
  · cases List.mem_singleton.1 he
    exact hlength

/-- The file that does not parse is analyzed last, and the other one is lost, or it is not. -/
theorem differ : ∃ report last report' last',
    Completes unavailable {} shortRequest (fun _ => none) tree () report last ∧
      Completes unavailable {} shortRequest (fun _ => none) tree () report' last' ∧
        last'.index ≠ last.index := by
  obtain ⟨found, log, hscan, hfound⟩ := exists_scan_tree
  obtain ⟨vector, -, hindex⟩ := index_tree
  have hhoused : Housed shortRequest.output ["w", "out"]
      (Shared.openFor shortRequest tree ()).cache (Shared.openFor shortRequest tree ()).files := by
    rw [opened_tree.1]
    exact opened_tree.2
  have hknown : Memo.outline? empty.digest
      ((Shared.openFor shortRequest tree ()).memo? empty.path) = some {} := by
    have hdigest : entry.memo.digest = empty.digest := rfl
    rw [Shared.memo?, Cache.memo?, opened_tree.1, remembers_tree, Option.map_some, Memo.outline?,
      Memo.about, Option.filter_some, if_pos (decide_eq_true hdigest), Option.bind_some]
    exact outline_entry
  have hrecord : (Shared.openFor shortRequest tree ()).index.records.items.get?
      (recordKey .file empty.path "") = some ⟨vector, payload⟩ := by
    rw [hindex]
    exact (Table.get?_eq_some_iff _).2 (.head _)
  have henabled := congrArg Meaning.Index.enabled hindex
  have hembedder := congrArg Meaning.Index.embedder hindex
  exact exists_completes_of_get? hscan hfound hhoused uniform_tree henabled hembedder rfl hknown rfl
    hrecord (Path.same_refl _)

end Misfiled

/-- The order decides what a run leaves if a module has its directory in the place of a Go file, if the
output is only there once a directory on the way is made, or if the index begins with a record under
the key of one file that is about another one. -/
theorem completes_fails_same :
    unavailable.Determined ∧ unavailable.GoesOn ∧ Racing unavailable entangled twoSources ∧
      Racing unavailable climbing twoSources ∧ Racing unavailable shortRequest Misfiled.tree := by
  have huniform {r : Request} (hindex : r.tools.index = { enabled := false }) :
      (Shared.openFor r twoSources ()).index.Uniform 1 := by
    have hdisabled : (Shared.openFor r twoSources ()).index = .disabled := by
      change (Meaning.Index.openIn r.tools.index _ _ _).1 = _
      rw [hindex]
      rfl
    rw [hdisabled]
    refine ⟨fun text vector h => ?_, nofun⟩
    cases h
    exact Meaning.length_embed 1 text
  refine ⟨⟨fun _ _ _ => rfl, fun _ _ _ => rfl⟩, fun _ => rfl, ?_, ?_, ?_⟩
  · obtain ⟨report, last, report', last', h, h', hfiles⟩ := Entangled.differ
    exact ⟨housed_twoSources.values.wellFormed, ⟨_, rfl, rfl, nofun⟩, ⟨1, huniform rfl⟩, report,
      last, report', last', h, h', fun hsame => hfiles hsame.2.1⟩
  · obtain ⟨report, last, report', last', h, h', hreport⟩ := Climbing.differ
    exact ⟨housed_twoSources.values.wellFormed, ⟨_, rfl, rfl, nofun⟩, ⟨1, huniform rfl⟩, report,
      last, report', last', h, h', fun hsame => hreport hsame.1⟩
  · obtain ⟨report, last, report', last', h, h', hindex⟩ := Misfiled.differ
    refine ⟨Misfiled.housed_tree.values.wellFormed, ?_, ⟨1, Misfiled.uniform_tree⟩, report, last,
      report', last', h, h', fun hsame => hindex hsame.2.2.2⟩
    rw [Misfiled.opened_tree.1]
    exact Misfiled.opened_tree.2.working

end Run

end Recast
