/-
  Proofs/Run/Housed.lean --- a cache in the directory of the output.

  A cache that works in the state directory of an output directory that is there (`Housed`) goes on
  working through a whole run, and every step has the effect on its memos that is to be expected:
  only the file that is analyzed or translated gets a new one.
-/
import Mathlib.Data.List.Nodup
import Recast.Proofs.Layout.Exchange
import Recast.Proofs.Run.Writing

set_option autoImplicit false

namespace Recast.Run

open Cache (Memo Outside ValueDirectory)

variable {σ : Type}

/-- The directory of the cache below that of the output. -/
def cacheNames : List RawText := [".modernize", "cache"]

/-- The directory that the cache of an output is kept in. -/
def cacheDirectory (output : Path) : Path := (stateDirectory output).join "cache"

/-- A cache that works in the state directory of an output directory that is there. -/
structure Housed (output : Path) (place : List RawText) (c : Cache) (files : Files) : Prop where
  leads : files.Leads output place
  kept : Cache.KeptIn c (cacheDirectory output)
  values : ValueDirectory files (cacheDirectory output) (place ++ cacheNames)

/-- The directory of values stays one if nothing in it becomes a directory. -/
theorem valueDirectory_of_writes {W : List RawText → Prop} {f g : Files} {path : Path}
    {place : List RawText} (h : ValueDirectory f path place) (hwrites : f.Writes W g)
    (hvalues : ∀ name, g.node? (place ++ [name]) = some .directory →
      f.node? (place ++ [name]) = some .directory) : ValueDirectory g path place :=
  ⟨hwrites.wellFormed h.wellFormed, hwrites.find_directory h.found,
    fun name hjson hdirectory => h.values name hjson (hvalues name hdirectory)⟩

namespace Housed

variable {output : Path} {place : List RawText} {c d : Cache} {f g : Files}

theorem working (h : Housed output place c f) : Cache.Working c f := by
  refine ⟨_, h.kept, rfl, fun path hpath => ?_⟩
  cases hpath
  exact ⟨_, h.values⟩

theorem steady (h : Housed output place c f) : Cache.Steady c f := .inr h.working

theorem isAvailable (h : Housed output place c f) : c.isAvailable = true := by
  rw [Cache.isAvailable, h.kept]
  rfl

theorem congr (h : Housed output place c f) (hstore : d.store = c.store) :
    Housed output place d f :=
  ⟨h.leads, by rw [Cache.KeptIn, hstore]; exact h.kept, h.values⟩

/-- What is written outside of the entries of the cache changes no memo. -/
theorem memo?_of_writes (h : Housed output place c f) (hwrites : f.Writes Outside g) (path : Path) :
    c.memo? g path = c.memo? f path := by
  refine Option.ext fun m => ⟨h.steady.placed.memo?_of_writes hwrites, fun hm => ?_⟩
  obtain ⟨e, he, rfl⟩ := Option.map_eq_some_iff.1 hm
  have hplace : ¬Outside (f.placeOf (Cache.entryPath (cacheDirectory output) path)) := by
    intro houtside
    rw [Cache.placeOf_entryPath] at houtside
    exact houtside _ _ rfl
  rw [Cache.memo?, h.kept.remembers_of_writes (.refl c) hwrites hplace he]
  rfl

/-- A step that writes outside of the entries, and makes no directory among them. -/
theorem of_writes (h : Housed output place c f) (hwrites : f.Writes Outside g)
    (hvalues : ∀ name, g.node? (place ++ cacheNames ++ [name]) = some .directory →
      f.node? (place ++ cacheNames ++ [name]) = some .directory) :
    Housed output place c g ∧ ∀ path, c.memo? g path = c.memo? f path :=
  ⟨⟨h.leads.writes hwrites, h.kept, valueDirectory_of_writes h.values hwrites hvalues⟩,
    h.memo?_of_writes hwrites⟩

/-- A part that is put into the cache has its effect on the memos. -/
theorem put (h : Housed output place c f) (path : Path) (digest : Digest) {part : Cache.Part}
    (hfits : part.Fits) :
    Housed output place ((Cache.Change.put path digest part).apply (c, f)).1
        ((Cache.Change.put path digest part).apply (c, f)).2 ∧
      ∀ other, Cache.ToldApart path other →
        ((Cache.Change.put path digest part).apply (c, f)).1.memo?
            ((Cache.Change.put path digest part).apply (c, f)).2 other =
          (Cache.Change.put path digest part).effect (· = other) (c.memo? f other) := by
  have hput : (Cache.Change.put path digest part).Fits := hfits
  obtain ⟨-, ⟨s, hstore, hworks⟩, -, -⟩ := Cache.memo?_apply h.working hput
  refine ⟨?_, fun other hother => Cache.memo?_apply_of_toldApart h.working hput fun p hp => by
    cases hp; exact hother⟩
  rw [Cache.apply_put] at hstore hworks ⊢
  obtain ⟨hcache, hwrites, -⟩ := h.kept.update f path digest part.change
  have hkept := h.kept.of_consulted hcache
  rw [hkept] at hstore
  cases hstore
  obtain ⟨place', hvalues⟩ := hworks.2 _ rfl
  have hfound := (hwrites.find_directory h.values.found).symm.trans hvalues.found
  cases hfound
  exact ⟨h.leads.writes hwrites, hkept, hvalues⟩

/-- A Go file that is written, or not, leaves the cache alone. -/
theorem attempt (h : Housed output place c f) {p : Layout.Placement} (hmodule : Path.IsName p.module)
    (hgo : Layout.IsGoFile p.fileName) (content : String) :
    Housed output place c (Layout.attempt f output p content).2 ∧
      ∀ path, c.memo? (Layout.attempt f output p content).2 path = c.memo? f path := by
  have hclosed := Layout.attempt_of_leads h.leads ⟨hmodule, hgo.isName⟩ content
  refine h.of_writes ?_ fun name hdirectory => ?_
  · rw [Layout.snd_attempt]
    refine (Layout.writes_write f output p content).mono fun q hq => ?_
    rw [hq, Layout.targetPath, Files.placeOf_join _ _ hgo.isName]
    exact Cache.outside_concat fun _ => Cache.keyName_ne_of_isGoFile hgo
  · rw [hclosed] at hdirectory
    rcases Layout.node?_settled f place p content (place ++ cacheNames ++ [name]) with
      hsame | ⟨heq, -, -⟩ | ⟨heq, -, -⟩
    · exact hsame.symm.trans hdirectory
    · simp [cacheNames] at heq
    · simp [cacheNames] at heq

/-- A file that is put somewhere outside of the entries leaves the cache alone. -/
theorem of_put (h : Housed output place c f) {q : List RawText} {content : ByteArray}
    (hwrites : f.Writes Outside (f.put q (.file content))) (hnode : f.node? q ≠ some .directory) :
    Housed output place c (f.put q (.file content)) ∧
      ∀ path, c.memo? (f.put q (.file content)) path = c.memo? f path :=
  h.of_writes hwrites fun _ => (Files.directory_put_file hnode content _).1

/-- A file that is put, or not, into a directory that is there leaves the cache alone. -/
theorem of_changeIn {ε : Type} (h : Housed output place c f) {directory : Path} {q : List RawText}
    (hleads : f.Leads directory q) {fault : FileError → ε} {change : Files → Except ε Files}
    (hwrites : f.Writes Outside (f.changeIn directory fault change).2)
    (hchange : ∀ g, change f = .ok g →
      ∃ r content, f.node? r ≠ some .directory ∧ g = f.put r (.file content)) :
    Housed output place c (f.changeIn directory fault change).2 ∧
      ∀ path, c.memo? (f.changeIn directory fault change).2 path = c.memo? f path := by
  unfold Files.changeIn at hwrites ⊢
  rw [Files.makeDirectories_of_leads hleads] at hwrites ⊢
  dsimp only at hwrites ⊢
  cases hresult : change f with
  | error e => exact ⟨h, fun _ => rfl⟩
  | ok g =>
    obtain ⟨r, content, hnode, rfl⟩ := hchange g hresult
    rw [hresult] at hwrites
    exact h.of_put hwrites hnode

/-- The state directory is there. -/
theorem leads_stateDirectory (h : Housed output place c f) :
    f.Leads (stateDirectory output) (place ++ [(".modernize" : RawText)]) := by
  obtain ⟨-, hnode, -⟩ := Files.find_eq_ok.1 h.values.found
  have hreached := h.values.wellFormed.reached _ (by rw [hnode]; exact nofun)
  refine h.leads.join (by decide) (by decide) (hreached.above _ "cache" [] ?_)
  rw [cacheNames, List.append_assoc]
  rfl

end Housed

theorem exists_put_of_write {f g : Files} {p : Path} {content : ByteArray}
    (h : f.write p content = .ok g) :
    ∃ q content, f.node? q ≠ some .directory ∧ g = f.put q (.file content) := by
  unfold Files.write at h
  obtain ⟨q, -, h⟩ := Files.bind_eq_ok.1 h
  dsimp only [pure, Except.pure] at h
  split at h
  · cases h
  · next hnot =>
    split at h
    · cases h
    · cases h
      exact ⟨q, content, hnot, rfl⟩

/-- An index that is kept in the state directory of an output, if it is kept. -/
def FiledIn (output : Path) (ix : Meaning.Index) : Prop :=
  ∀ path, ix.file = some path → path = (stateDirectory output).join Meaning.Index.fileName

theorem FiledIn.filed {output : Path} {ix : Meaning.Index} (h : FiledIn output ix) : Filed ix := by
  intro path hpath
  rw [h path hpath, Path.fileName?, Path.components_join _ (by decide), List.getLast?_concat]

/-- A step of a run that leaves the cache in its place with all its memos. -/
structure Spares (output : Path) (place : List RawText) (s t : Shared σ) : Prop where
  housed : Housed output place t.cache t.files
  memo : ∀ path, t.memo? path = s.memo? path

namespace Spares

variable {output : Path} {place : List RawText} {s t u : Shared σ}

theorem refl (h : Housed output place s.cache s.files) : Spares output place s s :=
  ⟨h, fun _ => rfl⟩

theorem trans (h : Spares output place s t) (h' : Spares output place t u) :
    Spares output place s u :=
  ⟨h'.housed, fun path => (h'.memo path).trans (h.memo path)⟩

end Spares

section Steps

variable {output : Path} {place : List RawText} {s : Shared σ}

theorem spares_flush (h : Housed output place s.cache s.files) (hfiled : FiledIn output s.index) :
    Spares output place s s.flush := by
  have hwrites := (writes_flush (s := s) hfiled.filed).files
  rw [files_flush_eq] at hwrites
  have hflushed : Housed output place s.cache (s.index.flush s.files).2 ∧
      ∀ path, s.cache.memo? (s.index.flush s.files).2 path = s.cache.memo? s.files path := by
    unfold Meaning.Index.flush at hwrites ⊢
    split
    · exact ⟨h, fun _ => rfl⟩
    · next path hpath =>
      rw [hpath] at hwrites
      obtain ⟨above, hparent⟩ : ∃ above, s.files.Leads path.parent above := by
        have hname : Path.IsName (RawText.ofString Meaning.Index.fileName) := by decide
        have htarget := h.leads_stateDirectory.target_join hname
        rw [if_neg (by decide), ← hfiled path hpath] at htarget
        refine Files.leads_parent ?_ htarget
        rw [hfiled path hpath, Path.components_join _ (by decide), List.dropLast_concat]
        exact Path.components_join_ne_nil output (by decide)
      refine h.of_changeIn hparent hwrites fun g hstore => ?_
      unfold Meaning.Records.store at hstore
      split at hstore
      · obtain ⟨-, -, hreplace⟩ := Files.bind_eq_ok.1 (Files.mapError_eq_ok.1 hstore)
        obtain ⟨q, -, -, hnode, rfl⟩ := Files.replace_eq_ok.1 hreplace
        exact ⟨q, _, hnode, rfl⟩
      · cases hstore
  refine ⟨?_, fun path => ?_⟩
  · rw [cache_flush, files_flush_eq]
    exact hflushed.1
  · rw [Shared.memo?, cache_flush, files_flush_eq]
    exact hflushed.2 path

theorem spares_describe (r : Request) (items : List Conversion.Item)
    (h : Housed r.output place s.cache s.files) :
    Spares r.output place s (describe r items s).2 := by
  have hdescribed : Housed r.output place s.cache
      (Layout.ensureModuleFile r.tools.layout s.files r.output).2 ∧
        ∀ path, s.cache.memo? (Layout.ensureModuleFile r.tools.layout s.files r.output).2 path =
          s.cache.memo? s.files path := by
    have hwrites := Layout.writes_ensureModuleFile r.tools.layout s.files r.output
    unfold Layout.ensureModuleFile at hwrites ⊢
    dsimp only at hwrites ⊢
    split
    · exact ⟨h, fun _ => rfl⟩
    · next hmissing =>
      rw [if_neg hmissing] at hwrites
      refine h.of_changeIn h.leads (hwrites.mono fun q hq => ?_) fun g hchange =>
        exists_put_of_write (Files.mapError_eq_ok.1 hchange)
      rw [hq, Files.placeOf_join _ _ (by decide)]
      exact Cache.outside_concat fun _ => Cache.keyName_ne_of_last (c := 'd') rfl (by decide)
  unfold describe
  split
  · exact .refl h
  · split <;> next heq =>
      rw [heq] at hdescribed
      exact ⟨hdescribed.1, hdescribed.2⟩

theorem housed_saveReport (r : Report) {c : Cache} {f : Files}
    (h : Housed r.output place c f) : Housed r.output place c (saveReport r f).1 ∧
      ∀ path, c.memo? (saveReport r f).1 path = c.memo? f path := by
  have hwrites := writes_saveReport r f
  rw [fst_saveReport] at hwrites ⊢
  refine h.of_changeIn h.leads hwrites fun g hchange => ?_
  unfold storeReport at hchange
  split at hchange
  · exact exists_put_of_write (Files.mapError_eq_ok.1 hchange)
  · cases hchange

/-- A run ends with describing the module and saving the report. -/
theorem conclude_spec (service : Service σ) (v : Assessment.Validator) (r : Request)
    (found : Scan.Result) (items : List Conversion.Item) (s : Shared σ) :
    (conclude service v r found items s).1.output = r.output ∧
      (conclude service v r found items s).2.cache =
        (describe r (items.mergeSort fun a b => a.source.path.le b.source.path) s).2.cache ∧
      (conclude service v r found items s).2.files =
        (saveReport (conclude service v r found items s).1
          (describe r (items.mergeSort fun a b => a.source.path.le b.source.path) s).2.files).1 := by
  unfold conclude
  dsimp only
  generalize describe r _ s = described
  generalize service.cancelled described.2.outside = stopped
  exact ⟨rfl, rfl, rfl⟩

/-- The end of a run leaves the cache alone. -/
theorem spares_conclude (service : Service σ) (v : Assessment.Validator) (r : Request)
    (found : Scan.Result) (items : List Conversion.Item)
    (h : Housed r.output place s.cache s.files) :
    Spares r.output place s (conclude service v r found items s).2 := by
  have hdescribe := spares_describe r (items.mergeSort fun a b => a.source.path.le b.source.path) h
  obtain ⟨houtput, hcache, hfiles⟩ := conclude_spec service v r found items s
  generalize conclude service v r found items s = ended at *
  generalize describe r _ s = described at *
  obtain ⟨hhoused, hmemo⟩ := housed_saveReport ended.1 (houtput ▸ hdescribe.housed)
  refine hdescribe.trans ⟨?_, fun path => ?_⟩
  · rw [hcache, hfiles, ← houtput]
    exact hhoused
  · rw [Shared.memo?, hcache, hfiles]
    exact hmemo path

/-- The analysis of a file leaves the cache in its place. -/
theorem housed_analyze (file : SourceFile) (h : Housed output place s.cache s.files) :
    Housed output place (s.analyze file).2.cache (s.analyze file).2.files := by
  obtain ⟨-, ⟨c, hc, hkept, -⟩ | ⟨c, o, hc, houtline, hkept, -⟩⟩ := Shared.analyze_cases file s
  · obtain ⟨hcache, hfiles⟩ := Prod.mk.inj hkept
    rw [hcache, hfiles]
    exact h.congr hc.store
  · have hfits : (Cache.Part.outline o).Fits := Outline.fits_of_ofBytes houtline.2
    have hput := ((h.congr hc.store).put file.path file.digest hfits).1
    rw [← hkept] at hput
    exact hput

theorem housed_analyzeAll (files : List SourceFile) (h : Housed output place s.cache s.files) :
    Housed output place (analyzeAll files s).2.cache (analyzeAll files s).2.files := by
  induction files generalizing s with
  | nil => exact h
  | cons file files ih => exact ih (housed_analyze file h)

/-- The first pass saves the index in the end, which leaves the cache alone. -/
theorem spares_prepare (r : Request) (found : Scan.Result)
    (h : Housed r.output place s.cache s.files) (hfiled : FiledIn r.output s.index) :
    ∃ log, Spares r.output place
      (analyzeAll found.files { s with
        index := (s.index.prune (found.files.map (·.path))).2, log }).2 (prepare r found s).2 := by
  obtain ⟨log, hprepare⟩ := exists_prepare r found s
  obtain ⟨items, hprune, -⟩ := Meaning.Index.prune_spec s.index (found.files.map (·.path))
  refine ⟨log, ?_⟩
  rw [hprepare, hprune]
  generalize hbegun : ({ s with
    index := { s.index with records := { s.index.records with items } }, log } : Shared σ) = begun
  have hend := housed_analyzeAll (s := begun) found.files (by rw [← hbegun]; exact h)
  obtain ⟨records, hindex⟩ := exists_index_analyzeAll found.files begun
  refine spares_flush hend ?_
  rw [hindex, ← hbegun]
  exact hfiled

/-! ## The second pass -/

/-- Writing the translation of a file is an attempt to write its Go file. -/
theorem files_writeItem_eq {item : Conversion.Item}
    (hnamed : Layout.Named ⟨item.module, item.goFile⟩) (output : Path) (content : String)
    (files : Files) : (writeItem output item content files).2.1 =
      (Layout.attempt files output ⟨item.module, item.goFile⟩ content).2 := by
  rw [Layout.snd_attempt, files_writeItem]
  split
  · exact (congrArg Prod.snd
      (Layout.write_eq_writeIfChanged hnamed.module hnamed.fileName files output content)).symm
  · rfl

theorem spares_finish (t : Conversion.Translator σ) {item : Conversion.Item}
    (hmodule : Path.IsName item.module) (hgo : Layout.IsGoFile item.goFile)
    (h : Housed output place s.cache s.files) :
    Spares output place s (finish t output item s).2 := by
  unfold finish
  split
  · exact .refl h
  · next content _ =>
    split
    · exact ⟨h, fun _ => rfl⟩
    · dsimp only
      obtain ⟨hhoused, hmemo⟩ := h.attempt (p := ⟨item.module, item.goFile⟩) hmodule hgo content
      rw [← files_writeItem_eq ⟨hmodule, hgo.isName⟩] at hhoused hmemo
      exact ⟨hhoused, hmemo⟩

/-- A step of a run that leaves the cache in its place.  The cache learns nothing, or one translation
of a file. -/
structure Learns (output : Path) (place : List RawText) (file : SourceFile) (s t : Shared σ) :
    Prop where
  housed : Housed output place t.cache t.files
  memo : (∀ path, t.memo? path = s.memo? path) ∨ ∃ translation, ∀ path,
    Cache.ToldApart file.path path → t.memo? path =
      (Cache.Change.put file.path file.digest (.translation translation)).effect (· = path)
        (s.memo? path)

theorem Learns.spares {file : SourceFile} {t u : Shared σ} (h : Learns output place file s t)
    (h' : Spares output place t u) : Learns output place file s u := by
  refine ⟨h'.housed, ?_⟩
  simp only [h'.memo]
  exact h.memo

theorem learns_process (t : Conversion.Translator σ) {a : Analyzed}
    (hmodule : Path.IsName a.placement.module) (hgo : Layout.IsGoFile a.placement.fileName)
    (h : Housed output place s.cache s.files) :
    Learns output place a.file s (process t output a s).2 := by
  unfold process
  split
  · exact ⟨h, .inl fun _ => rfl⟩
  · next outline _ =>
    have hstores := t.stores_convert (.start a.file (some outline) a.placement.module
      a.placement.fileName s.cache s.files s.outside)
    unfold Conversion.Job.start at hstores
    dsimp only
    generalize t.convert _ = result at hstores
    obtain ⟨done, job⟩ := result
    obtain ⟨⟨hmodule', hfile'⟩, hkept⟩ := hstores
    dsimp only at hkept hmodule' hfile' ⊢
    have hconverted : Learns output place a.file s (Shared.say
        { s with cache := job.cache, files := job.files, outside := job.outside } job.log) := by
      rcases hkept with ⟨c, hc, heq⟩ | ⟨c, translation, hc, hfits, heq⟩
      · obtain ⟨rfl, hfiles⟩ := Prod.mk.inj heq
        refine ⟨?_, .inl fun path => ?_⟩
        · change Housed output place job.cache job.files
          rw [hfiles]
          exact h.congr hc.store
        · change job.cache.memo? job.files path = _
          rw [hfiles]
          exact Cache.memo?_congr hc.store s.files path
      · obtain ⟨hcache, hfiles⟩ := Prod.mk.inj heq
        obtain ⟨hhoused, hmemo⟩ := (h.congr hc.store).put a.file.path a.file.digest
          (show (Cache.Part.translation translation).Fits from hfits)
        refine ⟨?_, .inr ⟨translation, fun path hpath => ?_⟩⟩
        · change Housed output place job.cache job.files
          rw [hcache, hfiles]
          exact hhoused
        · change job.cache.memo? job.files path = _
          rw [hcache, hfiles]
          refine (hmemo path hpath).trans ?_
          rw [Cache.memo?_congr hc.store]
          rfl
    split
    · exact hconverted.spares (spares_finish t (show Path.IsName job.item.module by rw [hmodule']; exact hmodule)
        (show Layout.IsGoFile job.item.goFile by rw [hfile']; exact hgo) hconverted.housed)
    · exact hconverted

/-- An outline that the cache serves stays when something is learned about content with the same
digest, or about another file. -/
theorem Learns.outline? {file other : SourceFile} {t : Shared σ}
    (h : Learns output place file s t) (htold : Cache.ToldApart file.path other.path)
    (hsame : file.path = other.path → file.digest = other.digest) {o : Outline}
    (ho : Memo.outline? other.digest (s.memo? other.path) = some o) :
    Memo.outline? other.digest (t.memo? other.path) = some o := by
  rcases h.memo with hmemo | ⟨translation, hmemo⟩
  · rw [hmemo]
    exact ho
  · rw [hmemo _ htold, Memo.outline?, Cache.about_effect]
    dsimp only
    split
    · next hpath =>
      rw [if_pos (hsame hpath), Option.bind_some]
      obtain ⟨m, hm, ho'⟩ := Option.bind_eq_some_iff.1 ho
      rw [hm]
      exact ho'
    · exact ho

theorem housed_processAll (t : Conversion.Translator σ) {as : List Analyzed}
    (has : ∀ a ∈ as, Path.IsName a.placement.module ∧ Layout.IsGoFile a.placement.fileName)
    (h : Housed output place s.cache s.files) :
    Housed output place (processAll t output as s).2.cache (processAll t output as s).2.files := by
  induction as generalizing s with
  | nil => exact h
  | cons a as ih =>
    obtain ⟨hmodule, hgo⟩ := has a (.head _)
    exact ih (fun b hb => has b (.tail _ hb)) (learns_process t hmodule hgo h).housed

/-- An outline that the cache serves stays in the second pass. -/
theorem outline?_processAll (t : Conversion.Translator σ) {as : List Analyzed}
    (has : ∀ a ∈ as, Path.IsName a.placement.module ∧ Layout.IsGoFile a.placement.fileName)
    (h : Housed output place s.cache s.files) {file : SourceFile}
    (htold : ∀ a ∈ as, Cache.ToldApart a.file.path file.path ∧
      (a.file.path = file.path → a.file.digest = file.digest)) {o : Outline}
    (ho : Memo.outline? file.digest (s.memo? file.path) = some o) :
    Memo.outline? file.digest ((processAll t output as s).2.memo? file.path) = some o := by
  induction as generalizing s with
  | nil => exact ho
  | cons a as ih =>
    obtain ⟨hmodule, hgo⟩ := has a (.head _)
    obtain ⟨hapart, hsame⟩ := htold a (.head _)
    have hlearns := learns_process t hmodule hgo h
    exact ih (fun b hb => has b (.tail _ hb)) hlearns.housed (fun b hb => htold b (.tail _ hb))
      (hlearns.outline? hapart hsame ho)

/-- A run that has a cache in the directory of its output leaves it there, and the cache serves what
it serves after the analysis of each file. -/
theorem housed_runOn (service : Service σ) (v : Assessment.Validator) (r : Request)
    {found : Scan.Result} (honce : found.files.Pairwise fun f g => f.path ≠ g.path)
    (htold : ∀ f ∈ found.files, ∀ g ∈ found.files, Cache.ToldApart f.path g.path)
    (hpackages : r.tools.layout.NamesPackages) (hfiled : FiledIn r.output s.index)
    (h : Housed r.output place s.cache s.files) :
    Housed r.output place (runOn service v r found s).2.cache (runOn service v r found s).2.files ∧
      ∀ file ∈ found.files, ∀ o,
        Memo.outline? file.digest (memoAfter file (s.memo? file.path)) = some o →
          Memo.outline? file.digest ((runOn service v r found s).2.memo? file.path) = some o := by
  obtain ⟨log, hprepare⟩ := spares_prepare r found h hfiled
  have has : ∀ a ∈ (prepare r found s).1,
      Path.IsName a.placement.module ∧ Layout.IsGoFile a.placement.fileName := fun a ha =>
    ⟨hpackages.isName (mem_place_of_mem_prepare ha).2, (analyzed_prepare ha).2⟩
  have hprocessed := housed_processAll ⟨service, v, (prepare r found s).2.index, r.conversion⟩ has
    hprepare.housed
  have hconclude := spares_conclude service v r found (processAll
    ⟨service, v, (prepare r found s).2.index, r.conversion⟩ r.output (prepare r found s).1
      (prepare r found s).2).1 hprocessed
  refine ⟨hconclude.housed, fun file hfile o ho => ?_⟩
  have hserved : Memo.outline? file.digest ((prepare r found s).2.memo? file.path) = some o := by
    rw [hprepare.memo, ((memo?_analyzeAll (s := { s with
      index := (s.index.prune (found.files.map (·.path))).2, log }) h.steady h.isAvailable honce
      fun f hf => htold f hf file hfile).2 file hfile rfl)]
    exact ho
  have hapart (a : Analyzed) (ha : a ∈ (prepare r found s).1) :
      Cache.ToldApart a.file.path file.path ∧
        (a.file.path = file.path → a.file.digest = file.digest) :=
    ⟨htold _ (analyzed_prepare ha).1 _ hfile, fun hpath => congrArg _
      (List.inj_on_of_nodup_map (List.pairwise_map.2 honce) (analyzed_prepare ha).1 hfile hpath)⟩
  have hlast := outline?_processAll ⟨service, v, (prepare r found s).2.index, r.conversion⟩ has
    hprepare.housed hapart hserved
  exact (congrArg _ (hconclude.memo file.path)).trans hlast

/-- A run changes nothing of an index but its records, and those in the first pass only. -/
theorem index_runOn (service : Service σ) (v : Assessment.Validator) (r : Request)
    {found : Scan.Result} (hfiled : FiledIn r.output s.index)
    (h : Housed r.output place s.cache s.files) :
    (runOn service v r found s).2.index = (prepare r found s).2.index := by
  obtain ⟨log, hprepare⟩ := spares_prepare r found h hfiled
  have hfades : Fades [] (prepare r found s).2 (runOn service v r found s).2 :=
    fades_runOn service v r (fun _ _ g hg => absurd hg List.not_mem_nil)
      hprepare.housed.steady.placed
  exact hfades.index

end Steps

end Recast.Run
