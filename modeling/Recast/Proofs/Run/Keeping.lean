/-
  Proofs/Run/Keeping.lean --- entries of the cache while several files are worked on.

  A cache in the directory of its output keeps the entry of a source file at a place of its own
  (`entryPlace`).  The work on a file writes there and nowhere else among the entries, so whatever the
  others do (`Acts`), an entry that a worker has left is found by it later (`Holds.of_acts`).  The
  first pass leaves an entry with the outline of the file (`Work.learns_analyze`), and it leaves one
  alone that has the outline already (`Work.retains_analyze`).
-/
import Recast.Proofs.Run.Alike
import Recast.Proofs.Run.Listing

set_option autoImplicit false

namespace Recast.Run

open Conversion (Item Job Translator)

variable {σ : Type}

/-! ## Entries in their places -/

/-- The place of the entry of a source file. -/
def entryPlace (place : List RawText) (path : Path) : List RawText :=
  place ++ cacheNames ++ [(Cache.keyName (Cache.entryKey path) : RawText)]

theorem entryPlace_ne {place : List RawText} {path other : Path} (htold : Cache.ToldApart path other)
    (hne : path ≠ other) : entryPlace place path ≠ entryPlace place other := by
  exact (Cache.place_keyName_ne (place ++ cacheNames) (mt htold hne)).symm

namespace Housed

variable {output : Path} {place : List RawText} {c d : Cache} {f g : Files}

/-- The directory of the output is where its path says. -/
theorem placeOf (h : Housed output place c f) : f.placeOf output = place :=
  h.leads.placeOf

/-- What is remembered about a file is what is at the place of its entry. -/
theorem remembers (h : Housed output place c f) (path : Path) :
    c.remembers f path =
      (Cache.contentOf? (f.node? (entryPlace place path))).bind Cache.Entry.decode? := by
  have hheld := h.values.held? "dir" [] (Cache.entryKey path)
  have hget : (Cache.Store.inDirectory (cacheDirectory output)).get f (Cache.entryKey path) =
      .ok (Cache.contentOf? (f.node? (entryPlace place path))) := hheld
  unfold Cache.remembers Cache.load
  rw [show c.store = _ from h.kept]
  dsimp only
  rw [hget]
  cases Cache.contentOf? (f.node? (entryPlace place path)) with
  | none => rfl
  | some bytes =>
    dsimp only [Option.bind_some]
    cases Cache.Entry.decode? bytes <;> rfl

/-- Storing an entry writes it to its place, and does nothing else. -/
theorem keep (h : Housed output place c f) (path : Path) (entry : Cache.Entry) :
    let bytes := Cache.Entry.encode { entry with time := c.now }
    c.keep f path entry = (c, f.put (entryPlace place path) (.file bytes), []) ∧
      Housed output place c (f.put (entryPlace place path) (.file bytes)) ∧
      f.Writes (· = entryPlace place path) (f.put (entryPlace place path) (.file bytes)) := by
  intro bytes
  obtain ⟨hreplace, hvalues⟩ := h.values.put (Cache.entryKey path) bytes
  have hset : (Cache.Store.inDirectory (cacheDirectory output)).set f (Cache.entryKey path) bytes =
      .ok (.inDirectory (cacheDirectory output),
        f.put (entryPlace place path) (.file bytes)) := h.values.set "dir" (Cache.entryKey path) bytes
  have hwrites : f.Writes (· = entryPlace place path)
      (f.put (entryPlace place path) (.file bytes)) := by
    refine (Files.writes_replace hreplace).mono fun q hq => ?_
    rw [hq, Cache.Store.keyPath, ← Cache.keyName, Files.placeOf_join _ _ (Cache.isName_keyName _),
      ← Files.target_eq_ok (Files.find_eq_ok.1 h.values.found).1]
    rfl
  refine ⟨?_, ⟨h.leads.writes hwrites, h.kept, hvalues⟩, hwrites⟩
  unfold Cache.keep
  rw [show c.store = _ from h.kept]
  dsimp only
  rw [hset]
  dsimp only
  rw [← show c.store = _ from h.kept]

end Housed

/-! ## What the work on a file does -/

/-- A step that changes neither a file nor the store of the cache. -/
structure Neutral (s s' : Shared σ) : Prop where
  files : s'.files = s.files
  store : s'.cache.store = s.cache.store
  force : s'.cache.force = s.cache.force

/-- A step that, as long as the cache is in the directory of the output, leaves it there and writes
to places of a kind only. -/
def Acts (output : Path) (place : List RawText) (W : List RawText → Prop) (s s' : Shared σ) : Prop :=
  Housed output place s.cache s.files →
    Housed output place s'.cache s'.files ∧ s'.cache.force = s.cache.force ∧
      s.files.Writes W s'.files

section Acts

variable {output : Path} {place : List RawText} {W V : List RawText → Prop} {s s' : Shared σ}

theorem Acts.mono (h : Acts output place W s s') (hsub : ∀ q, W q → V q) :
    Acts output place V s s' := by
  intro hhoused
  obtain ⟨hhoused', hforce, hwrites⟩ := h hhoused
  exact ⟨hhoused', hforce, hwrites.mono hsub⟩

theorem Neutral.acts (h : Neutral s s') : Acts output place W s s' := by
  intro hhoused
  refine ⟨?_, h.force, ?_⟩
  · rw [h.files]
    exact hhoused.congr h.store
  · rw [h.files]
    exact .refl _ _

theorem steady_acts : Task.Steady (Acts output place W : Shared σ → Shared σ → Prop) where
  refl s := fun hhoused => ⟨hhoused, rfl, .refl _ _⟩
  trans h h' := fun hhoused => by
    obtain ⟨hmiddle, hforce, hwrites⟩ := h hhoused
    obtain ⟨hlast, hforce', hwrites'⟩ := h' hmiddle
    exact ⟨hlast, hforce'.trans hforce, hwrites.trans hwrites'⟩

/-- The cache holds bytes as the entry of a source file. -/
structure Holds (output : Path) (place : List RawText) (path : Path) (bytes : ByteArray)
    (s : Shared σ) : Prop where
  housed : Housed output place s.cache s.files
  node : s.files.node? (entryPlace place path) = some (.file bytes)

namespace Holds

variable {path : Path} {bytes : ByteArray}

/-- An entry stays when its place is left alone. -/
theorem of_acts (h : Holds output place path bytes s) (hacts : Acts output place W s s')
    (hw : ¬W (entryPlace place path)) : Holds output place path bytes s' := by
  obtain ⟨hhoused, -, hwrites⟩ := hacts h.housed
  refine ⟨hhoused, ?_⟩
  rw [hwrites.node_eq hw (by rw [h.node]; exact Option.some_ne_none _), h.node]

/-- It is what is remembered. -/
theorem remembers (h : Holds output place path bytes s) :
    s.cache.remembers s.files path = Cache.Entry.decode? bytes := by
  rw [h.housed.remembers, h.node]
  rfl

end Holds

/-- What is remembered about a file stays when the place of its entry is left alone. -/
theorem remembers_of_acts (hhoused : Housed output place s.cache s.files)
    (hacts : Acts output place W s s') {path : Path} (hw : ¬W (entryPlace place path)) :
    s'.cache.remembers s'.files path = s.cache.remembers s.files path := by
  obtain ⟨hhoused', -, hwrites⟩ := hacts hhoused
  rw [hhoused.remembers, hhoused'.remembers]
  rcases hwrites.node (entryPlace place path) with hsame | ⟨-, hdirectory⟩ | ⟨hwritten, -⟩
  · rw [hsame]
  · exact absurd hdirectory (hhoused'.values.not_directory _)
  · exact absurd hwritten hw

end Acts

/-- Work that has a result as it should be, and changes neither a file nor the store of the cache. -/
def Plain {α : Type} (task : Task (Shared σ) α) (post : α → Prop) : Prop :=
  ∀ s, task.Within (fun _ _ => True) Neutral (fun a _ => post a) s

theorem steady_true : Task.Steady fun _ _ : Shared σ => True := ⟨fun _ => trivial, fun _ _ => trivial⟩

namespace Plain

variable {α β : Type} {post : α → Prop} {task : Task (Shared σ) α}

theorem pure {a : α} (h : post a) : Plain (Pure.pure a : Task (Shared σ) α) post :=
  fun _ => .pure fun _ _ => h

theorem bind {more : α → Task (Shared σ) β} {last : β → Prop} (h : Plain task post)
    (hmore : ∀ a, post a → Plain (more a) last) : Plain (task >>= more) last :=
  fun s => (h s).bind steady_true fun a s' ha => hmore a ha s'

theorem act {f : Shared σ → α × Shared σ} (h : ∀ s, Neutral s (f s).2 ∧ post (f s).1) :
    Plain (Task.act f) post :=
  fun _ => .act fun s' _ => ⟨(h s').1, fun _ _ => (h s').2⟩

/-- A step of a job. -/
theorem onJob {f : Job σ → β × Job σ} {job : Job σ} {last : β × Job σ → Prop}
    (h : ∀ cache files outside,
      (f { job with cache, files, outside }).2.files = files ∧
        (f { job with cache, files, outside }).2.cache.store = cache.store ∧
        (f { job with cache, files, outside }).2.cache.force = cache.force ∧
        last (f { job with cache, files, outside })) : Plain (Run.onJob f job) last := by
  refine .act fun s => ?_
  obtain ⟨hfiles, hstore, hforce, hlast⟩ := h s.cache s.files s.outside
  exact ⟨⟨hfiles, hstore, hforce⟩, hlast⟩

/-- Among others that write to some places only, such work leaves the rest as it was. -/
theorem within (h : Plain task post) {output : Path} {place : List RawText}
    {W V : List RawText → Prop} (s : Shared σ) :
    task.Within (Acts output place W) (Acts output place V)
      (fun a s' => post a ∧ Acts output place W s s') s := by
  have hneutral : task.Within (Acts output place W) Neutral (fun a _ => post a) s :=
    (h s).weaken (fun _ _ _ => trivial) fun _ _ => id
  exact (hneutral.left steady_acts fun _ _ hstep => hstep.acts).weaken (fun _ _ => id)
    fun _ _ hstep => hstep.acts

end Plain

/-! ## The first pass -/

namespace Work

theorem plain_forget (path : Path) : Plain (forget path : Task (Shared σ) Unit) fun _ => True :=
  .act fun _ => ⟨⟨rfl, rfl, rfl⟩, trivial⟩

theorem plain_putAll (path : Path) (ds : List Meaning.Index.Draft) :
    Plain (putAll path ds : Task (Shared σ) Unit) fun _ => True := by
  induction ds with
  | nil => exact .pure trivial
  | cons d ds ih =>
    refine Plain.bind (?_ : Plain _ fun _ => True) fun fault _ => ?_
    · refine .act fun s => ?_
      split <;> exact ⟨⟨rfl, rfl, rfl⟩, trivial⟩
    · cases fault with
      | none => exact ih
      | some e => exact .act fun _ => ⟨⟨rfl, rfl, rfl⟩, trivial⟩

theorem plain_learn (file : SourceFile) (o : Outline) :
    Plain (learn file o : Task (Shared σ) Unit) fun _ => True := by
  have henabled : Plain (Task.act fun s : Shared σ => (s.index.enabled, s)) fun _ => True :=
    .act fun _ => ⟨⟨rfl, rfl, rfl⟩, trivial⟩
  refine henabled.bind fun enabled _ => ?_
  split
  · exact (plain_forget file.path).bind fun _ _ => plain_putAll file.path _
  · exact .pure trivial

end Work

/-- The cache holds bytes that keep an entry with the outline of a source file. -/
structure Retains (output : Path) (place : List RawText) (file : SourceFile) (bytes : ByteArray)
    (e : Cache.Entry) (s : Shared σ) : Prop where
  holds : Holds output place file.path bytes s
  decoded : Cache.Entry.decode? bytes = some e
  digest : e.digest = file.digest
  outline : e.outline ≠ none

section Retains

variable {output : Path} {place : List RawText} {file : SourceFile} {bytes : ByteArray}
  {e : Cache.Entry} {s s' : Shared σ}

namespace Retains

theorem of_acts {W : List RawText → Prop} (h : Retains output place file bytes e s)
    (hacts : Acts output place W s s') (hw : ¬W (entryPlace place file.path)) :
    Retains output place file bytes e s' :=
  ⟨h.holds.of_acts hacts hw, h.decoded, h.digest, h.outline⟩

theorem remembers (h : Retains output place file bytes e s) :
    s.cache.remembers s.files file.path = some e :=
  h.holds.remembers.trans h.decoded

/-- There is one entry. -/
theorem unique {other : ByteArray} {e' : Cache.Entry} (h : Retains output place file bytes e s)
    (h' : Retains output place file other e' s) : other = bytes ∧ e' = e := by
  cases h.holds.node.symm.trans h'.holds.node
  exact ⟨rfl, Option.some.inj (h'.decoded.symm.trans h.decoded)⟩

/-- What the cache knows counts for the file. -/
theorem matching (h : Retains output place file bytes e s) :
    Cache.matching file.digest (s.cache.remembers s.files file.path) = some e := by
  rw [h.remembers, Cache.matching, Option.filter_some, if_pos (decide_eq_true h.digest)]

end Retains

/-- An outline that is served is known. -/
theorem exists_retains (hhoused : Housed output place s.cache s.files) {o : Outline}
    (h : (s.cache.outline? s.files file.path file.digest).1 = some o) :
    ∃ bytes e, Retains output place file bytes e s ∧
      Cache.matching file.digest (s.cache.remembers s.files file.path) = some e := by
  rw [Cache.fst_outline?] at h
  obtain ⟨e, hmatching, houtline⟩ := Option.bind_eq_some_iff.1 h
  obtain ⟨hremembers, hdigest⟩ := Option.filter_eq_some_iff.1 hmatching
  have hnode := hremembers
  rw [hhoused.remembers] at hnode
  obtain ⟨bytes, hcontent, hdecode⟩ := Option.bind_eq_some_iff.1 hnode
  refine ⟨bytes, e, ⟨⟨hhoused, ?_⟩, hdecode, of_decide_eq_true hdigest, ?_⟩, hmatching⟩
  · unfold Cache.contentOf? at hcontent
    split at hcontent
    · next heq =>
      cases hcontent
      exact heq
    · cases hcontent
  · rw [houtline]
    exact Option.some_ne_none _

/-- A part of an entry that is stored beside an outline is known afterwards. -/
theorem Housed.retains_keep (h : Housed output place s.cache s.files) (file : SourceFile)
    {known : Option Cache.Entry} (hknown : ∀ e, known = some e → e.Fits) (part : Cache.Part)
    (hfits : part.Fits)
    (houtline : (part.change ((Cache.matching file.digest known).getD
      { digest := file.digest })).outline ≠ none) {t : Shared σ}
    (hcache : t.cache = (s.cache.keep s.files file.path
      (part.change ((Cache.matching file.digest known).getD { digest := file.digest }))).1)
    (hfiles : t.files = (s.cache.keep s.files file.path
      (part.change ((Cache.matching file.digest known).getD { digest := file.digest }))).2.1) :
    Acts output place (· = entryPlace place file.path) s t ∧ ∃ bytes,
      Retains output place file bytes { part.change ((Cache.matching file.digest known).getD
        { digest := file.digest }) with time := s.cache.now } t := by
  have hentry := Cache.fits_change file.digest hknown hfits
  have hdigest : (part.change ((Cache.matching file.digest known).getD
      { digest := file.digest })).digest = file.digest := by
    have hsame : ((Cache.matching file.digest known).getD { digest := file.digest }).digest =
        file.digest := by
      cases hmatching : Cache.matching file.digest known with
      | none => rfl
      | some e => exact of_decide_eq_true (Option.filter_eq_some_iff.1 hmatching).2
    cases part <;> exact hsame
  generalize part.change ((Cache.matching file.digest known).getD { digest := file.digest }) =
    entry at *
  obtain ⟨hkeep, hhoused, hwrites⟩ := h.keep file.path entry
  rw [hkeep] at hcache hfiles
  dsimp only at hcache hfiles
  have hnode : t.files.node? (entryPlace place file.path) =
      some (.file (Cache.Entry.encode { entry with time := s.cache.now })) := by
    rw [hfiles, Files.node?_put _ (by simp [entryPlace]), if_pos rfl]
  rw [← hfiles, ← hcache] at hhoused
  refine ⟨fun _ => ⟨hhoused, by rw [hcache], by rw [hfiles]; exact hwrites⟩, _, ⟨hhoused, hnode⟩,
    Cache.Entry.decode?_encode ⟨hentry.outline, hentry.translation⟩, hdigest, houtline⟩

end Retains

/-- Work that writes the entry of a source file and nothing else, while others leave it alone. -/
abbrev Enters {α : Type} (output : Path) (place : List RawText) (path : Path)
    (task : Task (Shared σ) α) (post : α → Shared σ → Prop) (s : Shared σ) : Prop :=
  task.Within (Acts output place fun q => q ≠ entryPlace place path)
    (Acts output place fun q => q = entryPlace place path) post s

/-- What the cache knows about a file after its analysis, if it remembered something before. -/
structure Learned (output : Path) (place : List RawText) (file : SourceFile)
    (before : Option Cache.Entry) (result : Except String Outline) (s : Shared σ) : Prop where
  parsed : ∀ o, file.HasOutline o → ∃ o', result = .ok o'
  entry : ∀ o, result = .ok o → file.syntaxError = none ∧
    ∃ bytes e, Retains output place file bytes e s ∧
      (Cache.matching file.digest before = none → e.translation = none)

namespace Work

section First

variable {output : Path} {place : List RawText} (file : SourceFile) {s : Shared σ}

/-- Asking for the outline of a file. -/
theorem enters_outline? (hhoused : Housed output place s.cache s.files) :
    Enters output place file.path (Task.act fun s : Shared σ =>
      ((s.cache.outline? s.files file.path file.digest).1,
        { s with cache := (s.cache.outline? s.files file.path file.digest).2.1 }.say
          (s.cache.outline? s.files file.path file.digest).2.2))
      (fun known s' => known = (s.cache.outline? s.files file.path file.digest).1 ∧
        Acts output place (fun q => q ≠ entryPlace place file.path) s s') s := by
  refine .act fun s' hs' => ?_
  have hcache := Cache.consulted_outline? s'.cache s'.files file.path file.digest
  have hneutral : Neutral s' ({ s' with
      cache := (s'.cache.outline? s'.files file.path file.digest).2.1 }.say
        (s'.cache.outline? s'.files file.path file.digest).2.2) :=
    ⟨rfl, hcache.store, hcache.force⟩
  refine ⟨hneutral.acts, fun u hu => ⟨?_, steady_acts.trans (steady_acts.trans hs' hneutral.acts) hu⟩⟩
  rw [Cache.fst_outline?, Cache.fst_outline?, remembers_of_acts hhoused hs' (fun h => h rfl)]

/-- An outline that is known is used, and nothing is stored. -/
theorem retains_analyze (hparses : file.syntaxError = none) {bytes : ByteArray} {e : Cache.Entry}
    (hretains : Retains output place file bytes e s) :
    Enters output place file.path (analyze file)
      (fun result s' => (∃ o, result = .ok o) ∧ Retains output place file bytes e s') s := by
  obtain ⟨o, ho⟩ := Option.ne_none_iff_exists'.1 hretains.outline
  unfold analyze
  rw [hparses]
  refine (enters_outline? file hretains.holds.housed).bind steady_acts ?_
  rintro known s₁ ⟨rfl, hs₁⟩
  rw [Cache.fst_outline?, hretains.matching, Option.bind_some, ho]
  have hmissing : Plain (Task.act fun s : Shared σ => ((s.index.fileMeaning? file.path).isNone, s))
      fun _ => True :=
    .act fun _ => ⟨⟨rfl, rfl, rfl⟩, trivial⟩
  have hlearned : Plain (do
      if ← Task.act fun s : Shared σ => ((s.index.fileMeaning? file.path).isNone, s) then
        learn file o
      return (.ok o : Except String Outline)) fun result => result = .ok o := by
    refine hmissing.bind fun missing _ => ?_
    dsimp only
    split
    · exact (plain_learn file o).bind fun _ _ => .pure rfl
    · exact .pure rfl
  refine (hlearned.within s₁).mono ?_
  rintro result s' ⟨rfl, hacts⟩
  exact ⟨⟨o, rfl⟩, hretains.of_acts (steady_acts.trans hs₁ hacts) fun h => h rfl⟩

theorem learns_forget (reason : String) (before : Option Cache.Entry)
    (hbroken : ∀ o, ¬file.HasOutline o) :
    Enters output place file.path (do
      forget file.path
      return (.error (Shared.syntaxFailure reason) : Except String Outline))
      (Learned output place file before) s := by
  have hfailed : Plain (do
      forget file.path
      return (.error (Shared.syntaxFailure reason) : Except String Outline) : Task (Shared σ) _)
      fun result => result = .error (Shared.syntaxFailure reason) :=
    (plain_forget file.path).bind fun _ _ => .pure rfl
  refine (hfailed.within s).mono ?_
  rintro result s' ⟨rfl, -⟩
  exact ⟨fun o ho => absurd ho (hbroken o), nofun⟩

/-- The analysis of a file whose outline is not served stores what it finds out. -/
theorem learns_analyzeAnew (hparses : file.syntaxError = none)
    (hhoused : Housed output place s.cache s.files) :
    Enters output place file.path (analyzeAnew file)
      (Learned output place file (s.cache.remembers s.files file.path)) s := by
  unfold analyzeAnew
  cases hparsed : Outline.ofBytes file.content with
  | error e =>
    refine learns_forget file e.message _ fun o ho => ?_
    cases hparsed.symm.trans ho.2
  | ok outline =>
    have hloaded : Enters output place file.path (Task.act (load file.path))
        (fun known s' => known = s.cache.remembers s.files file.path ∧
          Housed output place s'.cache s'.files) s := by
      refine .act fun s' hs' => ?_
      have hcache := Cache.consulted_load s'.cache s'.files file.path
      have hneutral : Neutral s' (load file.path s').2 := ⟨rfl, hcache.store, hcache.force⟩
      refine ⟨hneutral.acts, fun u hu => ⟨remembers_of_acts hhoused hs' fun h => h rfl, ?_⟩⟩
      exact (steady_acts.trans (steady_acts.trans hs' hneutral.acts) hu hhoused).1
    refine hloaded.bind steady_acts ?_
    rintro known s₁ ⟨rfl, hhoused₁⟩
    have hstored : Enters output place file.path
        (Task.act (keepOutline file outline (s.cache.remembers s.files file.path)))
        (fun _ s' => ∃ bytes e, Retains output place file bytes e s' ∧
          (Cache.matching file.digest (s.cache.remembers s.files file.path) = none →
            e.translation = none)) s₁ := by
      refine .act fun s' hs' => ?_
      have hfits (e : Cache.Entry) (he : s.cache.remembers s.files file.path = some e) : e.Fits :=
        Cache.fits_of_remembers he
      obtain ⟨hacts, bytes, hretains⟩ := (hs' hhoused₁).1.retains_keep file hfits
        (.outline outline) (Outline.fits_of_ofBytes hparsed) (Option.some_ne_none _)
        (t := (keepOutline file outline (s.cache.remembers s.files file.path) s').2) rfl rfl
      refine ⟨hacts, fun u hu => ⟨bytes, _, hretains.of_acts hu fun h => h rfl, fun hnone => ?_⟩⟩
      rw [hnone]
      rfl
    refine hstored.bind steady_acts ?_
    rintro - s₂ ⟨bytes, e, hretains, hnew⟩
    have hlearned : Plain (do
        learn file outline
        return (.ok outline : Except String Outline) : Task (Shared σ) _)
        fun result => result = .ok outline :=
      (plain_learn file outline).bind fun _ _ => .pure rfl
    refine (hlearned.within s₂).mono ?_
    rintro result s' ⟨rfl, hacts⟩
    exact ⟨fun _ _ => ⟨_, rfl⟩,
      fun _ _ => ⟨hparses, bytes, e, hretains.of_acts hacts fun h => h rfl, hnew⟩⟩

/-- The analysis of a file that parses leaves an entry with its outline, and with a translation only
if there was one for the content of the file. -/
theorem learns_analyze (hhoused : Housed output place s.cache s.files) :
    Enters output place file.path (analyze file)
      (Learned output place file (s.cache.remembers s.files file.path)) s := by
  cases hbroken : file.syntaxError with
  | some reason =>
    unfold analyze
    rw [hbroken]
    refine learns_forget file reason _ fun o ho => ?_
    cases hbroken.symm.trans ho.1
  | none =>
    cases hserved : (s.cache.outline? s.files file.path file.digest).1 with
    | some o =>
      obtain ⟨bytes, e, hretains, hmatching⟩ := exists_retains hhoused hserved
      refine (retains_analyze file hbroken hretains).mono ?_
      rintro result s' ⟨hok, hretains'⟩
      refine ⟨fun _ _ => hok, fun _ _ => ⟨hbroken, bytes, e, hretains', fun hnone => ?_⟩⟩
      cases hmatching.symm.trans hnone
    | none =>
      unfold analyze
      rw [hbroken]
      refine (enters_outline? file hhoused).bind steady_acts ?_
      rintro known s₁ ⟨rfl, hs₁⟩
      rw [hserved, ← remembers_of_acts hhoused hs₁ fun h => h rfl]
      exact learns_analyzeAnew file hbroken (hs₁ hhoused).1

end First

end Work

end Recast.Run
