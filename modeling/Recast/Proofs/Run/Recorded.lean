/-
  Proofs/Run/Recorded.lean --- the beginning of runs whose indexes were saved with different records.

  A tree in which records are saved holds the same source files as the tree without them
  (`scan_sameSources`).  So runs of a request that begin with the one and with the other open the same
  cache and find the same files (`opens_recorded`), whatever the settings of the index are.
-/
import Recast.Proofs.Run.Alike
import Recast.Proofs.Scan

set_option autoImplicit false

namespace Recast

/-! ## Trees with the same source files -/

namespace Scan

/-- Trees with the same directories and the same source files. -/
structure SameSources (f g : Files) : Prop where
  here : g.here = f.here
  directory : ∀ place, g.node? place = some .directory ↔ f.node? place = some .directory
  source : ∀ place, IsSourcePlace place → g.node? place = f.node? place

namespace SameSources

variable {f g k : Files}

theorem refl (f : Files) : SameSources f f := ⟨rfl, fun _ => .rfl, fun _ _ => rfl⟩

theorem symm (h : SameSources f g) : SameSources g f :=
  ⟨h.here.symm, fun place => (h.directory place).symm, fun place hplace => (h.source place hplace).symm⟩

theorem trans (h : SameSources f g) (h' : SameSources g k) : SameSources f k :=
  ⟨h'.here.trans h.here, fun place => (h'.directory place).trans (h.directory place),
    fun place hplace => (h'.source place hplace).trans (h.source place hplace)⟩

/-- None of the source files has changed. -/
theorem follows (h : SameSources f g) (s : Settings) : Follows s (fun _ => False) f g where
  here := h.here
  directory place hplace := (h.directory place).2 hplace
  before place content hsource hplace := ⟨content, h.source place hsource ▸ hplace⟩
  after place earlier hsource hplace :=
    ⟨earlier, (h.source place hsource).trans hplace, .inl ⟨not_false, rfl⟩⟩

/-- A file that is no source file may be written. -/
theorem put {q : List RawText} (hq : ¬IsSourcePlace q) (hnode : f.node? q ≠ some .directory)
    (content : ByteArray) : SameSources f (f.put q (.file content)) := by
  refine ⟨rfl, fun place => ?_, fun place hplace => ?_⟩
  · rw [Files.node?_put_file hnode]
    split
    · next heq =>
      subst heq
      exact iff_of_false nofun hnode
    · exact .rfl
  · rw [Files.node?_put_file hnode, if_neg]
    rintro rfl
    exact hq hplace

/-- A directory may be made in both. -/
theorem ensure (h : SameSources f g) {place : List RawText} (hne : place ≠ [])
    (hnone : g.node? place = none ↔ f.node? place = none) :
    SameSources (f.ensure place) (g.ensure place) := by
  refine ⟨?_, fun q => ?_, fun q hq => ?_⟩
  · rw [Files.here_ensure, Files.here_ensure, h.here]
  · simp only [Files.node?_ensure hne, hnone]
    split
    · exact .rfl
    · exact h.directory q
  · simp only [Files.node?_ensure hne, hnone, h.source q hq]

end SameSources

/-- The same files are found. -/
theorem scan_sameSources {s : Settings} {f g : Files} (hf : f.WellFormed) (hg : g.WellFormed)
    (h : SameSources f g) {input : Path} {found : Result} {log : Log}
    (hscan : scan s f input = .ok (found, log)) :
    ∃ found' log', scan s g input = .ok (found', log') ∧ found'.files = found.files := by
  obtain ⟨found', log', hscan', hagain⟩ := scan_again hf hg (h.follows s) hscan
  refine ⟨found', log', hscan', ?_⟩
  have hsame : List.Forall₂ Eq found.files found'.files :=
    hagain.imp fun _ _ ha => (ha.kept not_false).symm
  exact (List.forall₂_eq_eq_eq ▸ hsame).symm

end Scan

namespace Run

variable {σ : Type}

/-! ## Records in a tree -/

/-- The file of the index of an output. -/
def indexPath (output : Path) : Path := (stateDirectory output).join Meaning.Index.fileName

/-- A tree in which anything may have been saved as the records of the index. -/
inductive Recorded (output : Path) (base : Files) : Files → Prop
  | plain : Recorded output base base
  | saved {files : Files} {content : ByteArray}
      (h : base.replace (indexPath output) content = .ok files) : Recorded output base files

theorem Recorded.wellFormed {output : Path} {base files : Files} (h : Recorded output base files)
    (hbase : base.WellFormed) : files.WellFormed := by
  cases h with
  | plain => exact hbase
  | saved h => exact (Files.writes_replace h).wellFormed hbase

/-- A request with other settings of the index. -/
def Request.withIndex (r : Request) (index : Meaning.IndexSettings) : Request :=
  { r with tools := { r.tools with index } }

/-! ## Opening -/

/-- An index is kept in the state directory. -/
theorem filedIn_openIn (s : Meaning.IndexSettings)
    (client : Except String (String → Except String Meaning.Vector)) (output : Path) (files : Files) :
    FiledIn output (Meaning.Index.openIn s client (stateDirectory output) files).1 := by
  intro path hpath
  unfold Meaning.Index.openIn at hpath
  split at hpath
  · cases hpath
  · dsimp only at hpath
    split at hpath
    · cases hpath
      rfl
    · cases hpath

/-- A cache in files is kept in the state directory. -/
theorem storedIn_openIn (backend : Cache.Backend) (server : Except Cache.StoreError Cache.Server)
    (output : Path) (files : Files) :
    StoredIn output (Cache.openIn backend server (stateDirectory output) files).1
      (Cache.openIn backend server (stateDirectory output) files).2.1 := by
  intro s path hstore hmedium
  by_cases hbackend : backend = .directory
  · subst hbackend
    obtain ⟨hfiles, hkept, hmade⟩ := Cache.openIn_directory server (stateDirectory output) files
    have havailable :
        (Cache.openIn .directory server (stateDirectory output) files).1.isAvailable = true := by
      unfold Cache.isAvailable
      rw [hstore]
      rfl
    cases (hkept (hmade havailable)).symm.trans hstore
    cases hmedium
    rw [hfiles]
    exact ⟨rfl, Files.Leads.of_makeDirectories (Path.components_join_ne_nil _ (by decide))
      (Prod.ext (hmade havailable) rfl)⟩
  · obtain ⟨c, log, hopen, hmemory⟩ :=
      Cache.openIn_of_ne_directory hbackend server (stateDirectory output)
    rw [hopen] at hstore
    obtain ⟨values, hvalues⟩ := hmemory s hstore
    cases hvalues.symm.trans hmedium

/-- A cache opens in the same way in trees that are the same but for the file of the index. -/
theorem openIn_same (backend : Cache.Backend) (server : Except Cache.StoreError Cache.Server)
    {output : Path} {place : List RawText} {base files : Files}
    (hstate : base.Leads (stateDirectory output) (place ++ [(".modernize" : RawText)]))
    (hstate' : files.Leads (stateDirectory output) (place ++ [(".modernize" : RawText)]))
    (hroot : base.Leads output place) (hroot' : files.Leads output place)
    (hsame : ∀ names, ¬IndexPlace names →
      files.node? (place ++ names) = base.node? (place ++ names))
    (hsources : Scan.SameSources base files) :
    let opened := Cache.openIn backend server (stateDirectory output) base
    let opened' := Cache.openIn backend server (stateDirectory output) files
    opened'.1 = opened.1 ∧ opened.2.1.Beside IndexPlace output opened'.2.1 ∧
      Scan.SameSources opened.2.1 opened'.2.1 := by
  have hcache := hsame cacheNames (by
    rintro (heq | heq)
    · cases heq
    · exact absurd heq (by decide))
  by_cases hbackend : backend = .directory
  · subst hbackend
    have hname : Path.IsName (RawText.ofString "cache") := by decide
    have hmake := Files.makeDirectories_join hstate hname
    have hmake' := Files.makeDirectories_join hstate' hname
    have hplace : place ++ [(".modernize" : RawText)] ++ [("cache" : RawText)] =
        place ++ cacheNames := List.append_assoc _ _ _
    rw [hplace, if_neg (by decide)] at hmake hmake'
    rw [hcache] at hmake'
    unfold Cache.openIn Cache.openStore Cache.Store.openDirectory
    dsimp only
    by_cases hfile : (base.node? (place ++ cacheNames)).any (· ≠ .directory) = true
    · rw [if_pos hfile] at hmake hmake'
      rw [hmake, hmake']
      exact ⟨rfl, .of_leads hroot hroot' hsame, hsources⟩
    · rw [if_neg hfile] at hmake hmake'
      rw [hmake, hmake']
      have hne : place ++ cacheNames ≠ [] := by simp [cacheNames]
      refine ⟨rfl, ?_, hsources.ensure hne (by rw [hcache])⟩
      refine .of_leads (hroot.mono (Files.here_ensure _ _) fun _ => Files.directory_ensure hne)
        (hroot'.mono (Files.here_ensure _ _) fun _ => Files.directory_ensure hne)
        fun names hnames => ?_
      rw [Files.node?_ensure hne, Files.node?_ensure hne, hcache, hsame names hnames]
  · obtain ⟨c, log, hopen, -⟩ :=
      Cache.openIn_of_ne_directory hbackend server (stateDirectory output)
    rw [hopen, hopen]
    exact ⟨rfl, .of_leads hroot hroot' hsame, hsources⟩

/-- The records are passed over when a cache is opened. -/
theorem openIn_recorded (backend : Cache.Backend) (server : Except Cache.StoreError Cache.Server)
    {output : Path} {base files : Files} (h : Recorded output base files) :
    let opened := Cache.openIn backend server (stateDirectory output) base
    let opened' := Cache.openIn backend server (stateDirectory output) files
    opened'.1 = opened.1 ∧ opened.2.1.Beside IndexPlace output opened'.2.1 ∧
      Scan.SameSources opened.2.1 opened'.2.1 := by
  cases h with
  | plain => exact ⟨rfl, .refl _, .refl _⟩
  | @saved _ content h =>
    have hwrites := Files.writes_replace h
    obtain ⟨q, htarget, -, hnode, rfl⟩ := Files.replace_eq_ok.1 h
    obtain ⟨place, hroot, hstate, -, -, rfl⟩ :=
      Files.leads_of_target_join_join (by decide) (by decide) htarget
    refine openIn_same backend server hstate (hstate.writes hwrites) hroot (hroot.writes hwrites)
      (fun names hnames => ?_) (.put ?_ hnode content)
    · rw [Files.node?_put_file hnode, if_neg]
      exact fun heq => hnames (.inr (List.append_cancel_left heq))
    · rintro ⟨above, name, hplace, hname⟩
      have hlast : (Meaning.Index.fileName : RawText) = name := by
        simpa using congrArg List.getLast? hplace
      subst hlast
      revert hname
      decide

/-- Runs that differ in the index begin with states that are alike and hold the same source files. -/
theorem opens_recorded {r : Request} {base files : Files} (h : Recorded r.output base files)
    (index : Meaning.IndexSettings) (outside : σ) :
    Alike r.output (Shared.openFor r base outside)
        (Shared.openFor (r.withIndex index) files outside) ∧
      Scan.SameSources (Shared.openFor r base outside).files
        (Shared.openFor (r.withIndex index) files outside).files := by
  obtain ⟨hcache, hbeside, hsources⟩ :=
    openIn_recorded r.tools.cache.backend (r.network.server r.tools.cache) h
  refine ⟨⟨?_, hbeside, ?_, ?_, ?_, ?_⟩, hsources⟩
  · exact congrArg (fun c : Cache => { c with force := r.force }) hcache
  · exact (storedIn_openIn _ _ r.output base).congr rfl
  · exact (storedIn_openIn _ _ r.output files).congr rfl
  · exact filedIn_openIn _ _ _ _
  · exact filedIn_openIn _ _ _ _

/-- So do runs that begin with different records. -/
theorem opens_alike {r : Request} {base files files' : Files} (h : Recorded r.output base files)
    (h' : Recorded r.output base files') (index : Meaning.IndexSettings) (outside : σ) :
    Alike r.output (Shared.openFor r files outside)
        (Shared.openFor (r.withIndex index) files' outside) ∧
      Scan.SameSources (Shared.openFor r files outside).files
        (Shared.openFor (r.withIndex index) files' outside).files := by
  obtain ⟨hs, hsources⟩ := opens_recorded h r.tools.index outside
  obtain ⟨hs', hsources'⟩ := opens_recorded h' index outside
  exact ⟨hs.symm.trans hs', hsources.symm.trans hsources'⟩

end Run

end Recast
