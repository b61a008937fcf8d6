/-
  Proofs/Run/Writing.lean --- what the second pass leaves in the cache.

  Of all the files that a run writes only the entries of the cache bear names of entries
  (`Outside`).  So after the second pass and the end of a run the cache knows no outline of a file
  that it did not know before (`fades_runOn`), and the index is as it was.
-/
import Recast.Proofs.Conversion.Validity
import Recast.Proofs.Layout.Output
import Recast.Proofs.Run.Analysis

set_option autoImplicit false

namespace Recast

namespace Cache

/-! ## Places of entries -/

/-- A place that does not bear the name of an entry. -/
def Outside (place : List RawText) : Prop :=
  ∀ above key, place ≠ above ++ [(keyName key : RawText)]

theorem outside_concat {above : List RawText} {name : String} (h : ∀ key, keyName key ≠ name) :
    Outside (above ++ [(name : RawText)]) := by
  intro other key heq
  have hlast := (List.append_inj' heq rfl).2
  exact h key (RawText.ofString_inj.1 (List.cons.inj hlast).1).symm

theorem keyName_ne_of_last {key name : String} {c : Char} (hlast : name.toList.getLast? = some c)
    (hc : c ≠ 'n') : keyName key ≠ name := by
  rintro rfl
  rw [keyName, String.toList_append, List.getLast?_append] at hlast
  cases hlast
  exact hc rfl

theorem keyName_ne_of_isGoFile {key name : String} (h : Layout.IsGoFile name) :
    keyName key ≠ name :=
  keyName_ne_of_last h.getLast? (by decide)

/-- What is remembered about a file after a change of the entry of another one was remembered
before. -/
theorem remembers_of_update_of_ne {c : Cache} {files : Files} {path other : Path} {digest : Digest}
    {change : Entry → Entry} (htold : ToldApart path other) (hne : path ≠ other) {e : Entry}
    (he : (c.update files path digest change).1.remembers
      (c.update files path digest change).2.1 other = some e) : c.remembers files other = some e := by
  rcases update_cases c files path digest change with ⟨hcache, hfiles, -⟩ |
      ⟨s, t, d, hstore, -, hcache, hput⟩
  · rw [hfiles, hcache.remembers] at he
    exact he
  · obtain ⟨t', bytes, ht, hget, hdecode⟩ := remembers_eq_some.1 he
    rw [hcache] at ht
    cases ht
    rw [Store.get_put_of_ne hput (htold.separates c s hstore) fun heq =>
      hne (htold (congrArg _ heq))] at hget
    exact remembers_eq_some.2 ⟨s, bytes, hstore, hget, hdecode⟩

/-- A part that is put is all that the cache can know afterwards and did not know before. -/
theorem memo?_of_put {c : Cache} {files : Files} {path other : Path} {digest : Digest} {part : Part}
    (hfits : part.Fits) (htold : ToldApart path other) {m : Memo}
    (hm : ((Change.put path digest part).apply (c, files)).1.memo?
      ((Change.put path digest part).apply (c, files)).2 other = some m) :
    c.memo? files other = some m ∨
      (path = other ∧
        (Change.put path digest part).effect (· = other) (c.memo? files other) = some m) := by
  rw [apply_put] at hm
  obtain ⟨e, he, rfl⟩ := Option.map_eq_some_iff.1 hm
  by_cases hpath : path = other
  · subst hpath
    rcases Cache.remembers_of_update (fits_nextEntry c files path digest hfits) he with rfl | hbefore
    · refine .inr ⟨rfl, ?_⟩
      rw [Change.effect, if_pos rfl, memo_nextEntry]
    · exact .inl (by rw [memo?, hbefore]; rfl)
  · exact .inl (by rw [memo?, remembers_of_update_of_ne htold hpath he]; rfl)

/-- A cache whose store, if it is a directory, is found. -/
def Placed (c : Cache) (files : Files) : Prop :=
  ∀ s path, c.store = .ok s → s.medium = .directory path →
    ∃ place, files.find path = .ok (place, .directory)

theorem Steady.placed {c : Cache} {files : Files} (h : Steady c files) : Placed c files := by
  intro s path hstore hmedium
  rcases h with ⟨reason, herror⟩ | ⟨t, ht, hworks⟩
  · rw [hstore] at herror
    cases herror
  · rw [hstore] at ht
    cases ht
    obtain ⟨place, hdirectory⟩ := hworks.2 path hmedium
    exact ⟨place, hdirectory.found⟩

namespace Placed

variable {c d : Cache} {files g : Files}

theorem congr (h : Placed c files) (hstore : d.store = c.store) : Placed d files := by
  intro s path hs
  exact h s path (hstore ▸ hs)

theorem writes (h : Placed c files) {W : List RawText → Prop} (hwrites : files.Writes W g) :
    Placed c g := by
  intro s path hstore hmedium
  obtain ⟨place, hfind⟩ := h s path hstore hmedium
  exact ⟨place, hwrites.find_directory hfind⟩

/-- What is read from an entry file of the directory is what is at its place. -/
theorem read_keyPath {path : Path} {place : List RawText}
    (h : files.find path = .ok (place, .directory)) (key : String) {content : ByteArray} :
    files.read (Store.keyPath path key) = .ok content ↔
      files.node? (place ++ [(keyName key : RawText)]) = some (.file content) := by
  have htarget : files.target (Store.keyPath path key) = .ok (place ++ [(keyName key : RawText)]) :=
    Files.target_join h (isName_keyName key) (length_keyName key)
  have hname : Files.namesDirectory (Store.keyPath path key) = false :=
    Files.namesDirectory_join path (isName_keyName key)
  rw [Files.read_eq_ok]
  constructor
  · rintro ⟨q, hq, hnode, -⟩
    rw [htarget] at hq
    cases hq
    exact hnode
  · exact fun hnode => ⟨_, htarget, hnode, hname⟩

/-- What is remembered after something else was written was remembered before. -/
theorem remembers_of_writes (h : Placed c files) (hwrites : files.Writes Outside g) {path : Path}
    {e : Entry} (he : c.remembers g path = some e) : c.remembers files path = some e := by
  obtain ⟨s, bytes, hstore, hget, hdecode⟩ := remembers_eq_some.1 he
  obtain ⟨hpermit, hheld⟩ := Store.get_eq_some.1 hget
  refine remembers_eq_some.2 ⟨s, bytes, hstore, Store.get_eq_some.2 ⟨hpermit, ?_⟩, hdecode⟩
  obtain ⟨name, medium, refused⟩ := s
  cases medium with
  | memory values => exact hheld
  | directory directory =>
    obtain ⟨place, hfind⟩ := h _ directory hstore rfl
    have hnode := (read_keyPath (hwrites.find_directory hfind) _).1 (Store.held?_directory.1 hheld)
    refine Store.held?_directory.2 ((read_keyPath hfind _).2 ?_)
    exact hwrites.file_before (fun houtside => houtside place _ rfl) hnode

theorem memo?_of_writes (h : Placed c files) (hwrites : files.Writes Outside g) {path : Path}
    {m : Memo} (hm : c.memo? g path = some m) : c.memo? files path = some m := by
  obtain ⟨e, he, rfl⟩ := Option.map_eq_some_iff.1 hm
  rw [memo?, h.remembers_of_writes hwrites he]
  rfl

/-- A part that is put leaves the directory in its place. -/
theorem put (h : Placed c files) (path : Path) (digest : Digest) (part : Part) :
    Placed ((Change.put path digest part).apply (c, files)).1
      ((Change.put path digest part).apply (c, files)).2 := by
  rw [apply_put]
  rcases update_cases c files path digest part.change with ⟨hcache, hfiles, -⟩ |
      ⟨s, t, d, hstore, -, hcache, hput⟩
  · rw [hfiles]
    exact h.congr hcache.store
  · rw [hcache]
    intro t' directory ht' hmedium
    cases ht'
    obtain ⟨name, medium, refused⟩ := s
    cases medium with
    | memory values =>
      rw [← (Prod.mk.inj (Except.ok.inj hput)).1] at hmedium
      cases hmedium
    | directory path =>
      obtain ⟨rfl, -, hreplace⟩ := Store.put_directory.1 hput
      cases hmedium
      obtain ⟨place, hfind⟩ := h _ _ hstore rfl
      exact ⟨place, (Files.writes_replace hreplace).find_directory hfind⟩

end Placed

end Cache

/-! ## What a conversion leaves in the cache -/

/-- A translation that is put changes no outline. -/
theorem Cache.outline?_of_effect {path other : Path} {d digest : Digest} {translation : Translation}
    {m : Option Memo} {o : Outline} (h : Memo.outline? digest
      ((Change.put path d (.translation translation)).effect (· = other) m) = some o) :
    Memo.outline? digest m = some o := by
  rw [Memo.outline?, about_effect] at h
  dsimp only at h
  split at h
  · split at h
    · rw [Memo.outline?]
      cases habout : Memo.about digest m with
      | none =>
        rw [habout] at h
        cases h
      | some memo =>
        rw [habout] at h
        exact h
    · cases h
  · exact h

namespace Conversion.Translator

variable {σ : Type} (t : Translator σ)

/-- A conversion keeps the place of its file.  It only asks the cache, or it puts one translation of
its file into it. -/
theorem stores_convert (job : Job σ) :
    ((t.convert job).2.item.module = job.item.module ∧
      (t.convert job).2.item.goFile = job.item.goFile) ∧
    ((∃ c, Cache.Consulted job.cache c ∧
        ((t.convert job).2.cache, (t.convert job).2.files) = (c, job.files)) ∨
      ∃ c translation, Cache.Consulted job.cache c ∧ translation.origin.Fits ∧
        ((t.convert job).2.cache, (t.convert job).2.files) =
          (Cache.Change.put job.path job.item.source.digest (.translation translation)).apply
            (c, job.files)) := by
  have hends := t.convert_ends job
  generalize t.convert job = result at hends
  have hplace {last : Job σ} (kept : Keeps job last) :
      last.item.module = job.item.module ∧ last.item.goFile = job.item.goFile := by
    obtain ⟨_, _, _, hitem⟩ := kept.item
    rw [hitem]
    exact ⟨rfl, rfl⟩
  have hstores {last : Job σ} (kept : Keeps job last) :
      ∃ c, Cache.Consulted job.cache c ∧ (last.cache, last.files) = (c, job.files) :=
    ⟨last.cache, kept.cache, by rw [kept.files]⟩
  cases hends with
  | @cancelled last kept =>
    have hlast := hplace kept
    have hkept := hstores kept
    exact ⟨hlast, .inl hkept⟩
  | @reused last hit kept found =>
    have hlast := hplace kept
    have hkept := hstores kept
    exact ⟨hlast, .inl hkept⟩
  | @fellBack last kept =>
    have hlast := hplace kept
    have hkept := hstores kept
    exact ⟨hlast, .inl hkept⟩
  | @accepted last code n kept checked count =>
    have hlast := hplace kept
    refine ⟨hlast, .inr ⟨last.cache, t.translationOf code n last, kept.cache,
      t.fits_maxAttempts count.2, ?_⟩⟩
    rw [cache_accept, files_accept, kept.files, kept.path, kept.source]
    rfl

end Conversion.Translator

namespace Run

open Cache (Memo Outside)

variable {σ : Type}

/-! ## What the steps write -/

/-- An index whose file, if it has one, bears the name of such files. -/
def Filed (ix : Meaning.Index) : Prop :=
  ∀ path, ix.file = some path → path.fileName? = some (RawText.ofString Meaning.Index.fileName)

/-- Saving an index changes nothing but its file. -/
theorem writes_save (r : Meaning.Records) (f : Files) (path : Path) :
    f.Writes (· = f.placeOf path) (r.save f path).2 := by
  refine Files.writes_changeIn fun made hmade g hstore => ?_
  unfold Meaning.Records.store at hstore
  split at hstore
  · obtain ⟨-, -, hreplace⟩ := Files.bind_eq_ok.1 (Files.mapError_eq_ok.1 hstore)
    rw [← hmade.placeOf]
    exact Files.writes_replace hreplace
  · cases hstore

/-- A step that keeps the index, and writes only outside of the entries of the cache, if it does not
change the cache. -/
structure Writes (s t : Shared σ) : Prop where
  index : t.index = s.index
  cache : t.cache = s.cache
  files : s.files.Writes Outside t.files

namespace Writes

theorem refl (s : Shared σ) : Writes s s := ⟨rfl, rfl, .refl _ _⟩

end Writes

theorem files_flush_eq (s : Shared σ) : s.flush.files = (s.index.flush s.files).2 := by
  unfold Shared.flush
  split <;> next heq => exact (congrArg Prod.snd heq).symm

/-- Saving the index at the end of the first pass writes its file at most. -/
theorem files_flush (s : Shared σ) :
    s.files.Writes (fun place => ∃ path, s.index.file = some path ∧ place = s.files.placeOf path)
      s.flush.files := by
  rw [files_flush_eq, Meaning.Index.flush]
  split
  · exact .refl _ _
  · next path hpath =>
    exact (writes_save _ _ path).mono fun place hplace => ⟨path, hpath, hplace⟩

theorem cache_flush (s : Shared σ) : s.flush.cache = s.cache := by
  unfold Shared.flush
  split <;> rfl

theorem writes_flush {s : Shared σ} (h : Filed s.index) : Writes s s.flush := by
  refine ⟨index_flush s, cache_flush s, (files_flush s).mono fun place hplace => ?_⟩
  obtain ⟨path, hpath, rfl⟩ := hplace
  obtain ⟨above, hplace⟩ := Files.exists_placeOf (f := s.files) (h path hpath)
  rw [hplace]
  exact Cache.outside_concat fun key =>
    Cache.keyName_ne (show 's' ∈ "semantic_index".toList by decide) (by decide)

/-- The files after the translation of a file is written, whether or not that succeeds. -/
theorem files_writeItem (output : Path) (item : Conversion.Item) (content : String) (files : Files) :
    (writeItem output item content files).2.1 =
      if item.cached then (Layout.writeIfChanged files output ⟨item.module, item.goFile⟩ content).2
      else (Layout.write files output ⟨item.module, item.goFile⟩ content).2 := by
  unfold writeItem
  dsimp only
  by_cases hcached : item.cached = true
  · rw [if_pos hcached, if_pos hcached]
    rcases Layout.writeIfChanged files output ⟨item.module, item.goFile⟩ content with ⟨_ | _, _⟩ <;>
      rfl
  · rw [if_neg hcached, if_neg hcached]
    rcases Layout.write files output ⟨item.module, item.goFile⟩ content with ⟨_ | _, _⟩ <;> rfl

theorem writes_finish (t : Conversion.Translator σ) (output : Path) {item : Conversion.Item}
    (hfile : Layout.IsGoFile item.goFile) (s : Shared σ) :
    Writes s (finish t output item s).2 := by
  have houtside (place : List RawText)
      (hw : place = s.files.placeOf (Layout.targetPath output ⟨item.module, item.goFile⟩)) :
      Outside place := by
    rw [hw, Layout.targetPath, Files.placeOf_join _ _ hfile.isName]
    exact Cache.outside_concat fun _ => Cache.keyName_ne_of_isGoFile hfile
  have hwrite (content : String) :
      s.files.Writes Outside (writeItem output item content s.files).2.1 := by
    rw [files_writeItem]
    split
    · exact (Layout.writes_writeIfChanged ..).mono houtside
    · exact (Layout.writes_write ..).mono houtside
  unfold finish
  split
  · exact .refl s
  · split
    · exact ⟨rfl, rfl, .refl _ _⟩
    · exact ⟨rfl, rfl, hwrite _⟩

/-- The places of the files that the end of a run writes right into the directory of the output. -/
def Closing (root place : List RawText) : Prop :=
  ∃ name ∈ ["go.mod", Report.fileName], place = root ++ [(name : RawText)]

theorem Closing.outside {root place : List RawText} (h : Closing root place) : Outside place := by
  obtain ⟨name, hname, rfl⟩ := h
  rw [List.mem_cons, List.mem_singleton] at hname
  refine Cache.outside_concat fun key => ?_
  rcases hname with rfl | rfl
  · exact Cache.keyName_ne_of_last (c := 'd') rfl (by decide)
  · exact Cache.keyName_ne (show 'r' ∈ "run_report".toList by decide) (by decide)

theorem files_describe (r : Request) (items : List Conversion.Item) (s : Shared σ) :
    s.files.Writes (Closing (s.files.placeOf r.output)) (describe r items s).2.files := by
  unfold describe
  split
  · exact .refl _ _
  · have hensure := (Layout.writes_ensureModuleFile r.tools.layout s.files r.output).mono
      (V := Closing (s.files.placeOf r.output)) fun place hplace => ⟨"go.mod", by decide, by
        rw [hplace, Files.placeOf_join _ _ (by decide)]⟩
    split <;> next heq =>
      rw [heq] at hensure
      exact hensure

theorem writes_describe (r : Request) (items : List Conversion.Item) (s : Shared σ) :
    Writes s (describe r items s).2 := by
  refine ⟨?_, ?_, (files_describe r items s).mono fun _ => Closing.outside⟩
  · unfold describe
    split
    · rfl
    · split <;> rfl
  · unfold describe
    split
    · rfl
    · split <;> rfl

/-- The files with a report in the directory of the output. -/
def storeReport (r : Report) (files : Files) : Except String Files :=
  if r.isText then
    (files.write (r.output.join Report.fileName) r.render.toUTF8).mapError FileError.message
  else .error Path.notText

theorem fst_saveReport (r : Report) (files : Files) :
    (saveReport r files).1 = (files.changeIn r.output FileError.message (storeReport r)).2 := by
  unfold saveReport storeReport
  dsimp only
  split <;> next heq => exact (congrArg Prod.snd heq).symm

theorem files_saveReport (r : Report) (files : Files) :
    files.Writes (Closing (files.placeOf r.output)) (saveReport r files).1 := by
  rw [fst_saveReport]
  refine Files.writes_changeIn fun made hmade g hchange => ?_
  unfold storeReport at hchange
  split at hchange
  · refine (Files.writes_write (Files.mapError_eq_ok.1 hchange)).mono fun place hplace =>
      ⟨Report.fileName, by decide, ?_⟩
    rw [hplace, Files.placeOf_join _ _ (by decide), hmade.placeOf]
  · cases hchange

theorem writes_saveReport (r : Report) (files : Files) :
    files.Writes Outside (saveReport r files).1 :=
  (files_saveReport r files).mono fun _ => Closing.outside

theorem writes_conclude (service : Service σ) (v : Assessment.Validator) (r : Request)
    (found : Scan.Result) (items : List Conversion.Item) (s : Shared σ) :
    Writes s (conclude service v r found items s).2 := by
  have hdescribe := writes_describe r (items.mergeSort fun a b => a.source.path.le b.source.path) s
  exact ⟨hdescribe.index, hdescribe.cache, hdescribe.files.trans (writes_saveReport _ _)⟩

/-! ## What the cache still knows -/

/-- A later state of a run: the index is as it was, and the cache knows no outline of a file that it
did not know before. -/
structure Fades (used : List SourceFile) (s t : Shared σ) : Prop where
  index : t.index = s.index
  outlines : ∀ f ∈ used, ∀ digest o, Memo.outline? digest (t.memo? f.path) = some o →
    Memo.outline? digest (s.memo? f.path) = some o
  placed : Cache.Placed t.cache t.files

namespace Fades

variable {used : List SourceFile} {s t u : Shared σ}

theorem trans (h : Fades used s t) (h' : Fades used t u) : Fades used s u :=
  ⟨h'.index.trans h.index, fun f hf digest o ho => h.outlines f hf digest o
    (h'.outlines f hf digest o ho), h'.placed⟩

theorem of_memo? (hindex : t.index = s.index) (hplaced : Cache.Placed t.cache t.files)
    (h : ∀ path m, t.memo? path = some m → s.memo? path = some m) : Fades used s t := by
  refine ⟨hindex, fun f _ digest o ho => ?_, hplaced⟩
  cases hm : t.memo? f.path with
  | none =>
    rw [hm] at ho
    cases ho
  | some m =>
    rw [hm] at ho
    rw [h _ _ hm]
    exact ho

theorem refl (hplaced : Cache.Placed s.cache s.files) : Fades used s s :=
  .of_memo? rfl hplaced fun _ _ => id

theorem of_writes (hplaced : Cache.Placed s.cache s.files) (h : Writes s t) : Fades used s t := by
  have hplaced' : Cache.Placed t.cache t.files := h.cache ▸ hplaced.writes h.files
  refine .of_memo? h.index hplaced' fun path m hm => ?_
  rw [Shared.memo?, h.cache] at hm
  exact hplaced.memo?_of_writes h.files hm

/-- A cache that was only asked knows what it did. -/
theorem of_consulted (hplaced : Cache.Placed s.cache s.files) (hindex : t.index = s.index)
    (hcache : Cache.Consulted s.cache t.cache) (hfiles : t.files = s.files) : Fades used s t := by
  refine .of_memo? hindex ?_ fun path m hm => ?_
  · rw [hfiles]
    exact hplaced.congr hcache.store
  · rw [Shared.memo?, hfiles, Cache.memo?_congr hcache.store] at hm
    exact hm

/-- A translation that was put changes no outline. -/
theorem of_put (hplaced : Cache.Placed s.cache s.files) (hindex : t.index = s.index) {c : Cache}
    (hcache : Cache.Consulted s.cache c) {path : Path} {digest : Digest}
    {translation : Cache.Translation} (hfits : (Cache.Part.translation translation).Fits)
    (htold : ∀ f ∈ used, Cache.ToldApart path f.path)
    (hput : (t.cache, t.files) =
      (Cache.Change.put path digest (.translation translation)).apply (c, s.files)) :
    Fades used s t := by
  obtain ⟨hc, hf⟩ := Prod.mk.inj hput
  refine ⟨hindex, fun f hf' digest o ho => ?_, ?_⟩
  · cases hmemo : t.memo? f.path with
    | none =>
      rw [hmemo] at ho
      cases ho
    | some m =>
      rw [hmemo] at ho
      rw [Shared.memo?, hc, hf] at hmemo
      have hbefore := Cache.memo?_of_put hfits (htold f hf') hmemo
      rw [Cache.memo?_congr hcache.store] at hbefore
      change s.memo? f.path = some m ∨ _ at hbefore
      rcases hbefore with hbefore | ⟨-, hnew⟩
      · rw [hbefore]
        exact ho
      · rw [← hnew] at ho
        exact Cache.outline?_of_effect ho
  · rw [hc, hf]
    exact (hplaced.congr hcache.store).put path digest (.translation translation)

end Fades

section Second

variable {used : List SourceFile} {s : Shared σ}

/-- The translation of a file leaves the index alone, and the cache knows no more outlines. -/
theorem fades_process (t : Conversion.Translator σ) (output : Path) {a : Analyzed}
    (htold : ∀ f ∈ used, Cache.ToldApart a.file.path f.path)
    (hgo : Layout.IsGoFile a.placement.fileName) (hplaced : Cache.Placed s.cache s.files) :
    Fades used s (process t output a s).2 := by
  unfold process
  split
  · exact .of_memo? rfl hplaced fun _ _ => id
  · next outline _ =>
    have hstores := t.stores_convert (.start a.file (some outline) a.placement.module
      a.placement.fileName s.cache s.files s.outside)
    unfold Conversion.Job.start at hstores
    dsimp only
    generalize t.convert _ = result at hstores
    obtain ⟨done, job⟩ := result
    obtain ⟨⟨-, hfile⟩, hkept⟩ := hstores
    dsimp only at hkept hfile ⊢
    have hconverted : Fades used s
        ({ s with cache := job.cache, files := job.files, outside := job.outside }.say job.log) := by
      rcases hkept with ⟨c, hc, heq⟩ | ⟨c, translation, hc, hfits, heq⟩
      · obtain ⟨rfl, hfiles⟩ := Prod.mk.inj heq
        exact .of_consulted hplaced rfl hc hfiles
      · exact .of_put hplaced rfl hc hfits htold heq
    split
    · exact hconverted.trans (.of_writes hconverted.placed (writes_finish t output (hfile ▸ hgo) _))
    · exact hconverted

theorem fades_processAll (t : Conversion.Translator σ) (output : Path) {as : List Analyzed}
    (has : ∀ a ∈ as, (∀ f ∈ used, Cache.ToldApart a.file.path f.path) ∧
      Layout.IsGoFile a.placement.fileName) (hplaced : Cache.Placed s.cache s.files) :
    Fades used s (processAll t output as s).2 := by
  induction as generalizing s with
  | nil => exact .refl hplaced
  | cons a as ih =>
    obtain ⟨htold, hgo⟩ := has a (.head _)
    have hfirst := fades_process t output htold hgo hplaced
    exact hfirst.trans (ih (fun b hb => has b (.tail _ hb)) hfirst.placed)

/-- The files that are translated are those that were found, and each has a place. -/
theorem mem_place_of_mem_prepare {r : Request} {found : Scan.Result} {a : Analyzed}
    (h : a ∈ (prepare r found s).1) : a.file ∈ found.files ∧ a.placement ∈ (Layout.place
      r.tools.layout (found.files.map fun file => relativeSource r.input file.path)).1 := by
  have hmem : (a.file, a.placement) ∈ (prepare r found s).1.map fun a => (a.file, a.placement) :=
    List.mem_map_of_mem h
  rw [places_prepare] at hmem
  exact List.of_mem_zip hmem

theorem analyzed_prepare {r : Request} {found : Scan.Result} {a : Analyzed}
    (h : a ∈ (prepare r found s).1) :
    a.file ∈ found.files ∧ Layout.IsGoFile a.placement.fileName :=
  ⟨(mem_place_of_mem_prepare h).1, (Layout.place_spec _ _).2.2 _ (mem_place_of_mem_prepare h).2⟩

/-- After the first pass the index stays, and the cache knows no more outlines. -/
theorem fades_runOn (service : Service σ) (v : Assessment.Validator) (r : Request)
    {found : Scan.Result}
    (htold : ∀ f ∈ found.files, ∀ g ∈ used, Cache.ToldApart f.path g.path)
    (hplaced : Cache.Placed (prepare r found s).2.cache (prepare r found s).2.files) :
    Fades used (prepare r found s).2 (runOn service v r found s).2 := by
  have has (a : Analyzed) (ha : a ∈ (prepare r found s).1) :
      (∀ f ∈ used, Cache.ToldApart a.file.path f.path) ∧ Layout.IsGoFile a.placement.fileName :=
    ⟨htold _ (analyzed_prepare ha).1, (analyzed_prepare ha).2⟩
  have hsecond := fades_processAll ⟨service, v, (prepare r found s).2.index, r.conversion⟩ r.output
    has hplaced
  exact hsecond.trans (.of_writes hsecond.placed (writes_conclude service v r found _ _))

end Second

end Run

end Recast
