/-
  Proofs/Run/Alike.lean --- states of a run that differ in the index.

  Two states are `Alike` if they differ at most in the index, in its file and in the state of the
  service.  Then the cache gives the same answers (`Alike.load`), and entries are kept in both or in
  none (`Alike.keep`); the index may change and be saved in one of them (`Alike.learn`,
  `Alike.flush`).
-/
import Recast.Proofs.Layout.Beside
import Recast.Proofs.Run.Housed
import Recast.Proofs.Run.Workers

set_option autoImplicit false

namespace Recast.Run

variable {σ : Type}

/-! ## Alike states -/

/-- The names below an output directory at which only the index writes: those of the state directory
and of its own file. -/
def IndexPlace (names : List RawText) : Prop :=
  names = [(".modernize" : RawText)] ∨ names = [(".modernize" : RawText), Meaning.Index.fileName]

/-- A cache that is not kept in files, or in those of a directory in the state directory of an
output. -/
def StoredIn (output : Path) (c : Cache) (files : Files) : Prop :=
  ∀ s path, c.store = .ok s → s.medium = .directory path →
    path = cacheDirectory output ∧ ∃ place, files.Leads path place

theorem StoredIn.congr {output : Path} {c d : Cache} {files : Files} (h : StoredIn output c files)
    (hstore : d.store = c.store) : StoredIn output d files :=
  fun s path hs => h s path (hstore ▸ hs)

theorem StoredIn.mono {output : Path} {c : Cache} {f g : Files} (h : StoredIn output c f)
    {W : List RawText → Prop} (hwrites : f.Writes W g) : StoredIn output c g := by
  intro s path hstore hmedium
  obtain ⟨hpath, place, hleads⟩ := h s path hstore hmedium
  exact ⟨hpath, place, hleads.writes hwrites⟩

/-- States of a run that differ at most in the index, in its file and in the state of the service. -/
structure Alike (output : Path) (s s' : Shared σ) : Prop where
  cache : s'.cache = s.cache
  files : s.files.Beside IndexPlace output s'.files
  stored : StoredIn output s.cache s.files
  stored' : StoredIn output s'.cache s'.files
  filed : FiledIn output s.index
  filed' : FiledIn output s'.index

namespace Alike

variable {output : Path} {s s' t t' : Shared σ}

theorem symm (h : Alike output s s') : Alike output s' s :=
  ⟨h.cache.symm, h.files.symm, h.stored', h.stored, h.filed', h.filed⟩

theorem trans {u : Shared σ} (h : Alike output s s') (h' : Alike output s' u) : Alike output s u :=
  ⟨h'.cache.trans h.cache, h.files.trans h'.files, h.stored, h'.stored', h.filed, h'.filed'⟩

/-- Nothing else about a state matters. -/
theorem congr (h : Alike output s s') (hcache : t'.cache = t.cache)
    (hstore : t.cache.store = s.cache.store) (hfiles : t.files = s.files)
    (hfiles' : t'.files = s'.files) (hindex : t.index = s.index) (hindex' : t'.index = s'.index) :
    Alike output t t' := by
  have hstore' : t'.cache.store = s'.cache.store := by rw [hcache, hstore, h.cache]
  refine ⟨hcache, ?_, ?_, ?_, hindex ▸ h.filed, hindex' ▸ h.filed'⟩
  · rw [hfiles, hfiles']
    exact h.files
  · rw [hfiles]
    exact h.stored.congr hstore
  · rw [hfiles']
    exact h.stored'.congr hstore'

/-- The index may change. -/
theorem learn (h : Alike output s s') (hcache : t.cache = s.cache) (hfiles : t.files = s.files)
    (hfile : t.index.file = s.index.file) : Alike output t s' := by
  refine ⟨h.cache.trans hcache.symm, ?_, ?_, h.stored', fun path hpath => ?_, h.filed'⟩
  · rw [hfiles]
    exact h.files
  · rw [hfiles, hcache]
    exact h.stored
  · exact h.filed path (hfile ▸ hpath)

/-- A cache in files is kept in the same place. -/
theorem leads (h : Alike output s s') {store : Cache.Store} {path : Path}
    (hstore : s.cache.store = .ok store) (hmedium : store.medium = .directory path) :
    ∃ place, s.files.Leads output place ∧ s'.files.Leads output place ∧
      s.files.Leads path (place ++ cacheNames) ∧ s'.files.Leads path (place ++ cacheNames) ∧
      ∀ names, ¬IndexPlace names → s'.files.node? (place ++ names) = s.files.node? (place ++ names) := by
  have hplace {files : Files} (hstored : StoredIn output s.cache files) :
      ∃ place, files.Leads output place ∧ files.Leads path (place ++ cacheNames) := by
    obtain ⟨hpath, cachePlace, hleads⟩ := hstored store path hstore hmedium
    rw [hpath] at hleads ⊢
    obtain ⟨statePlace, hstate, rfl⟩ := hleads.of_join (by decide)
    obtain ⟨place, hroot, rfl⟩ := hstate.of_join (by decide)
    refine ⟨place, hroot, ?_⟩
    rw [List.append_assoc] at hleads
    exact hleads
  obtain ⟨place, hroot, hcache⟩ := hplace h.stored
  obtain ⟨place', hroot', hcache'⟩ := hplace (h.stored'.congr (congrArg _ h.cache.symm))
  obtain ⟨rfl, hsame⟩ := h.files.same hroot hroot'
  exact ⟨place', hroot, hroot', hcache, hcache', hsame⟩

theorem not_indexPlace_keyName (key : String) :
    ¬IndexPlace (cacheNames ++ [(Cache.keyName key : RawText)]) := by
  rintro (heq | heq)
  · exact absurd (congrArg List.length heq) (by simp [cacheNames])
  · exact absurd (congrArg List.length heq) (by simp [cacheNames])

/-- What the store holds is the same. -/
theorem held? (h : Alike output s s') {store : Cache.Store} (hstore : s.cache.store = .ok store)
    (key : String) : store.held? s'.files key = store.held? s.files key := by
  obtain ⟨name, medium, refused⟩ := store
  cases medium with
  | memory values => rfl
  | directory directory =>
    obtain ⟨place, -, -, hleads, hleads', hsame⟩ := h.leads hstore rfl
    have hname := Cache.isName_keyName key
    have hsize := Cache.length_keyName key
    have hnode := hsame _ (not_indexPlace_keyName key)
    rw [← List.append_assoc] at hnode
    have hread : s'.files.read (Cache.Store.keyPath directory key) =
        s.files.read (Cache.Store.keyPath directory key) :=
      Files.read_congr (Files.target_join_of_leads hleads hname hsize)
        (Files.target_join_of_leads hleads' hname hsize) hnode
    unfold Cache.Store.held?
    dsimp only
    rw [hread]

/-- What is loaded is the same. -/
theorem load (h : Alike output s s') (path : Path) :
    s'.cache.load s'.files path = s.cache.load s.files path := by
  rw [h.cache]
  unfold Cache.load
  cases hstore : s.cache.store with
  | error reason => rfl
  | ok store =>
    dsimp only
    unfold Cache.Store.get
    rw [h.held? hstore]

/-- The directory of a cache in files is there. -/
theorem requireDirectory (h : Alike output s s') {store : Cache.Store} {path : Path}
    (hstore : s.cache.store = .ok store) (hmedium : store.medium = .directory path) :
    s.files.requireDirectory path = .ok () := by
  obtain ⟨hpath, place, hleads⟩ := h.stored store path hstore hmedium
  refine hleads.requireDirectory ?_
  rw [hpath, cacheDirectory, Path.components_join _ (by decide)]
  exact List.append_ne_nil_of_right_ne_nil _ (List.cons_ne_nil _ _)

/-- A value is put into the directories of both states, or into none. -/
theorem put_directory (h : Alike output s s') {name : String} {directory : Path}
    {refused : List Cache.Call} (hstore : s.cache.store = .ok ⟨name, .directory directory, refused⟩)
    (key : String) (value : ByteArray) :
    let store := Cache.Store.mk name (.directory directory) refused
    (∃ e, store.put s.files key value = .error e ∧ store.put s'.files key value = .error e) ∨
      ∃ g g', store.put s.files key value = .ok (store, g) ∧
        store.put s'.files key value = .ok (store, g') ∧ g.Beside IndexPlace output g' ∧
        StoredIn output s.cache g ∧ StoredIn output s.cache g' := by
  intro store
  have hstore' : s'.cache.store = .ok store := (congrArg _ h.cache).trans hstore
  obtain ⟨place, hroot, hroot', hleads, hleads', -⟩ := h.leads hstore rfl
  rw [Cache.Store.put_of_requireDirectory (h.requireDirectory hstore rfl),
    Cache.Store.put_of_requireDirectory (h.symm.requireDirectory hstore' rfl)]
  rcases h.files.replace hroot hroot' hleads hleads' (Cache.isName_keyName key)
    (Cache.length_keyName key) (not_indexPlace_keyName key) value with
      ⟨e, he, he'⟩ | ⟨g, g', hg, hg', hbeside⟩
  · refine .inl ⟨.file e, ?_, ?_⟩
    · rw [Cache.Store.keyPath, ← Cache.keyName, he]
      rfl
    · rw [Cache.Store.keyPath, ← Cache.keyName, he']
      rfl
  · refine .inr ⟨g, g', ?_, ?_, hbeside, h.stored.mono (Files.writes_replace hg),
      (h.stored'.congr (congrArg _ h.cache.symm)).mono (Files.writes_replace hg')⟩
    · rw [Cache.Store.keyPath, ← Cache.keyName, hg]
      rfl
    · rw [Cache.Store.keyPath, ← Cache.keyName, hg']
      rfl

/-- A value is put into both stores, which are the same, or into none. -/
theorem set (h : Alike output s s') {store : Cache.Store} (hstore : s.cache.store = .ok store)
    (key : String) (value : ByteArray) :
    (∃ e, store.set s.files key value = .error e ∧ store.set s'.files key value = .error e) ∨
      ∃ stored g g', store.set s.files key value = .ok (stored, g) ∧
        store.set s'.files key value = .ok (stored, g') ∧ g.Beside IndexPlace output g' ∧
        ∀ c : Cache, c.store = .ok stored → StoredIn output c g ∧ StoredIn output c g' := by
  have hset (files : Files) : store.set files key value =
      (store.permit .set).bind fun _ => store.put files key value := rfl
  rw [hset, hset]
  cases store.permit .set with
  | error e => exact .inl ⟨e, rfl, rfl⟩
  | ok permitted =>
    dsimp only [Except.bind]
    obtain ⟨name, medium, refused⟩ := store
    cases medium with
    | memory values =>
      have hstored (c : Cache) (files : Files)
          (hc : c.store = .ok ⟨name, .memory (values.insert key value), refused⟩) :
          StoredIn output c files := by
        intro stored path hstored hmedium
        cases hc.symm.trans hstored
        cases hmedium
      exact .inr ⟨_, s.files, s'.files, rfl, rfl, h.files,
        fun c hc => ⟨hstored c _ hc, hstored c _ hc⟩⟩
    | directory directory =>
      refine (h.put_directory hstore key value).imp_right ?_
      rintro ⟨g, g', hg, hg', hbeside, hstored, hstored'⟩
      refine ⟨_, g, g', hg, hg', hbeside, fun c hc => ?_⟩
      have hsame : c.store = s.cache.store := hc.trans hstore.symm
      exact ⟨hstored.congr hsame, hstored'.congr hsame⟩

/-- An entry is kept in both or in none. -/
theorem keep (h : Alike output s s') (path : Path) (entry : Cache.Entry)
    (hcache : t.cache = (s.cache.keep s.files path entry).1)
    (hfiles : t.files = (s.cache.keep s.files path entry).2.1)
    (hcache' : t'.cache = (s'.cache.keep s'.files path entry).1)
    (hfiles' : t'.files = (s'.cache.keep s'.files path entry).2.1)
    (hindex : t.index = s.index) (hindex' : t'.index = s'.index) : Alike output t t' := by
  rw [h.cache] at hcache' hfiles'
  unfold Cache.keep at hcache hfiles hcache' hfiles'
  cases hstore : s.cache.store with
  | error reason =>
    rw [hstore] at hcache hfiles hcache' hfiles'
    exact h.congr (hcache'.trans hcache.symm) (congrArg _ hcache) hfiles hfiles' hindex hindex'
  | ok store =>
    rw [hstore] at hcache hfiles hcache' hfiles'
    dsimp only at hcache hfiles hcache' hfiles'
    rcases h.set hstore (Cache.entryKey path) { entry with time := s.cache.now }.encode with
      ⟨e, he, he'⟩ | ⟨stored, g, g', hg, hg', hbeside, hstored⟩
    · rw [he] at hcache hfiles
      rw [he'] at hcache' hfiles'
      refine h.congr (hcache'.trans hcache.symm) ?_ hfiles hfiles' hindex hindex'
      rw [hcache]
      exact (Cache.consulted_reportFailure s.cache e).store
    · rw [hg] at hcache hfiles
      rw [hg'] at hcache' hfiles'
      have hkept := hstored t.cache (congrArg _ hcache)
      have hkept' := hstored t'.cache (congrArg _ hcache')
      rw [← show t.files = g from hfiles, ← show t'.files = g' from hfiles'] at hkept hkept' hbeside
      exact ⟨hcache'.trans hcache.symm, hbeside, hkept.1, hkept'.2, hindex ▸ h.filed,
        hindex' ▸ h.filed'⟩

/-- A collection is saved by putting a file. -/
theorem exists_replace_of_store {r : Meaning.Records} {path : Path} {f g : Files}
    (h : r.store path f = .ok g) : ∃ content, f.replace path content = .ok g := by
  unfold Meaning.Records.store at h
  split at h
  · obtain ⟨-, -, hreplace⟩ := Files.bind_eq_ok.1 (Files.mapError_eq_ok.1 h)
    exact ⟨_, hreplace⟩
  · cases h

/-- The index may be saved. -/
theorem flush (h : Alike output s s') : Alike output s.flush s' := by
  have hfiles : s.flush.files.Beside IndexPlace output s'.files := by
    rw [files_flush_eq]
    unfold Meaning.Index.flush
    split
    · exact h.files
    · next path hpath =>
      have hparent (made : Files) : made.makeDirectories path.parent =
          made.makeDirectories (stateDirectory output) := by
        rw [h.filed path hpath]
        exact Files.makeDirectories_parent_join made (stateDirectory output) (by decide)
      unfold Meaning.Records.save Files.changeIn
      rw [hparent]
      refine h.files.changeIn_left (by decide) (by decide) (.inl rfl) (.inr rfl) _
        fun made g hstore => ?_
      rw [h.filed path hpath] at hstore
      exact exists_replace_of_store hstore
  refine ⟨h.cache.trans (cache_flush s).symm, hfiles, ?_, h.stored', ?_, h.filed'⟩
  · exact (h.stored.congr (congrArg _ (cache_flush s))).mono (files_flush s)
  · rw [index_flush]
    exact h.filed

end Alike

end Recast.Run
