/-
  Proofs/Run/Stock.lean --- what workers do with what they share.

  Of all that workers share, the cache, the index and the tree of files count for what is left of a
  run; the state of the service and what was said do not (`Stock`).  What is done there for different
  files can be done in either order: it concerns different entries of the cache (`Served.keep_keep`),
  different Go files (`Layout.attempt_comm`), or an entry and a Go file (`Served.keep_attempt`).
-/
import Recast.Proofs.Run.Keeping
import Recast.Proofs.Run.Reusing
import Recast.Proofs.Task.Exchange

set_option autoImplicit false

namespace Recast.Run

open Conversion (Item)

variable {σ : Type}

/-- What counts of all that workers share. -/
structure Stock where
  cache : Cache
  index : Meaning.Index
  files : Files

/-- All but the state of the service and what was said. -/
def Shared.stock (s : Shared σ) : Stock := ⟨s.cache, s.index, s.files⟩

/-- What is left when the entry of a file is stored. -/
def Stock.keep (path : Path) (entry : Cache.Entry) (c : Stock) : Stock :=
  { c with
    cache := (c.cache.keep c.files path entry).1
    files := (c.cache.keep c.files path entry).2.1 }

/-! ## Caches that work -/

/-- A cache that keeps nothing in files: one without a store, or with one in memory. -/
def Unfiled (c : Cache) : Prop :=
  ∀ s, c.store = .ok s → s.refused = [] ∧ ∃ values, s.medium = .memory values

/-- A cache that does not fail, in the files of the output or not in files, beside an output directory
that is there or whose path does not climb. -/
structure Served (output : Path) (c : Cache) (f : Files) : Prop where
  outputs : Layout.Steady output f
  kept : (∃ place, Housed output place c f) ∨ Unfiled c

section Served

variable {output : Path} {c d : Cache} {f g : Files} {path other : Path}

theorem Unfiled.cases (h : Unfiled c) : (∃ reason, c.store = .error reason) ∨
    ∃ name values, c.store = .ok ⟨name, .memory values, []⟩ := by
  cases hstore : c.store with
  | error reason => exact .inl ⟨reason, rfl⟩
  | ok s =>
    obtain ⟨hrefused, values, hmedium⟩ := h s hstore
    obtain ⟨name, medium, refused⟩ := s
    cases hrefused
    cases hmedium
    exact .inr ⟨name, values, rfl⟩

theorem Unfiled.steady (h : Unfiled c) (f : Files) : Cache.Steady c f := by
  rcases h.cases with hnone | ⟨name, values, hstore⟩
  · exact .inl hnone
  · exact .inr ⟨_, hstore, rfl, nofun⟩

namespace Served

theorem steady (h : Served output c f) : Cache.Steady c f := by
  rcases h.kept with ⟨place, hhoused⟩ | hunfiled
  · exact hhoused.steady
  · exact hunfiled.steady f

theorem congr (h : Served output c f) (hstore : d.store = c.store) : Served output d f :=
  ⟨h.outputs, h.kept.imp (fun ⟨place, hhoused⟩ => ⟨place, hhoused.congr hstore⟩)
    fun hunfiled s hs => hunfiled s (hstore ▸ hs)⟩

end Served

/-! ### Entries -/

theorem keep_of_error {reason : String} (h : c.store = .error reason) (f : Files) (path : Path)
    (entry : Cache.Entry) : c.keep f path entry = (c, f, []) := by
  unfold Cache.keep
  rw [h]

theorem keep_of_memory {name : String} {values : Table String ByteArray}
    (h : c.store = .ok ⟨name, .memory values, []⟩) (f : Files) (path : Path) (entry : Cache.Entry) :
    c.keep f path entry =
      ({ c with store := .ok ⟨name, .memory (values.insert (Cache.entryKey path)
        (Cache.Entry.encode { entry with time := c.now })), []⟩ }, f, []) := by
  unfold Cache.keep
  rw [h]
  rfl

theorem remembers_of_memory {name : String} {values : Table String ByteArray}
    (h : c.store = .ok ⟨name, .memory values, []⟩) (f : Files) (path : Path) :
    c.remembers f path = (values.get? (Cache.entryKey path)).bind Cache.Entry.decode? :=
  Cache.remembers_of_works h ⟨rfl, nofun⟩ path

theorem remembers_of_error {reason : String} (h : c.store = .error reason) (f : Files) (path : Path) :
    c.remembers f path = none := by
  rw [Cache.remembers, Cache.load, h]

/-- What is not kept in files does not depend on them. -/
theorem Unfiled.remembers (h : Unfiled c) (f g : Files) (path : Path) :
    c.remembers g path = c.remembers f path := by
  rcases h.cases with ⟨reason, hstore⟩ | ⟨name, values, hstore⟩
  · rw [remembers_of_error hstore, remembers_of_error hstore]
  · rw [remembers_of_memory hstore, remembers_of_memory hstore]

theorem Unfiled.keep (h : Unfiled c) (f : Files) (path : Path) (entry : Cache.Entry) :
    Unfiled (c.keep f path entry).1 ∧ (c.keep f path entry).2.1 = f ∧
      ∀ g, (c.keep g path entry).1 = (c.keep f path entry).1 := by
  rcases h.cases with ⟨reason, hstore⟩ | ⟨name, values, hstore⟩
  · rw [keep_of_error hstore]
    exact ⟨h, rfl, fun g => by rw [keep_of_error hstore]⟩
  · rw [keep_of_memory hstore]
    refine ⟨fun s hs => ?_, rfl, fun g => by rw [keep_of_memory hstore]⟩
    cases hs
    exact ⟨rfl, _, rfl⟩

theorem entryKey_ne (htold : Cache.ToldApart path other) (hne : path ≠ other) :
    Cache.entryKey path ≠ Cache.entryKey other :=
  fun heq => hne (htold (congrArg Digest.ofString heq))

namespace Served

/-- Storing an entry changes nothing of the cache but what the store holds. -/
theorem keep (h : Served output c f) (path : Path) (entry : Cache.Entry) :
    Served output (c.keep f path entry).1 (c.keep f path entry).2.1 ∧
      ∃ store, (c.keep f path entry).1 = { c with store } := by
  rcases h.kept with ⟨place, hhoused⟩ | hunfiled
  · obtain ⟨hkeep, hkept, hwrites⟩ := hhoused.keep path entry
    rw [hkeep]
    exact ⟨⟨h.outputs.writes hwrites, .inl ⟨place, hkept⟩⟩, c.store, rfl⟩
  · obtain ⟨hkept, hfiles, -⟩ := hunfiled.keep f path entry
    have houtputs : Layout.Steady output (c.keep f path entry).2.1 := by
      rw [hfiles]
      exact h.outputs
    refine ⟨⟨houtputs, .inr hkept⟩, ?_⟩
    rcases hunfiled.cases with ⟨reason, hstore⟩ | ⟨name, values, hstore⟩
    · exact ⟨c.store, by rw [keep_of_error hstore]⟩
    · exact ⟨_, by rw [keep_of_memory hstore]⟩

/-- What is remembered about other files stays. -/
theorem remembers_keep (h : Served output c f) (hne : path ≠ other)
    (htold : Cache.ToldApart path other) (entry : Cache.Entry) :
    (c.keep f path entry).1.remembers (c.keep f path entry).2.1 other = c.remembers f other := by
  rcases h.kept with ⟨place, hhoused⟩ | hunfiled
  · obtain ⟨hkeep, hkept, -⟩ := hhoused.keep path entry
    rw [hkeep, hkept.remembers, hhoused.remembers, Files.node?_put _ (by simp [entryPlace]),
      if_neg (entryPlace_ne htold hne).symm]
  · rcases hunfiled.cases with ⟨reason, hstore⟩ | ⟨name, values, hstore⟩
    · rw [keep_of_error hstore]
    · rw [keep_of_memory hstore, remembers_of_memory rfl, remembers_of_memory hstore,
        Table.get?_insert, if_neg (entryKey_ne htold hne).symm]

/-- An entry that was stored is remembered with the time, if anything is. -/
theorem remembers_keep_self (h : Served output c f) (path : Path) {entry e : Cache.Entry}
    (hfits : entry.Fits)
    (he : (c.keep f path entry).1.remembers (c.keep f path entry).2.1 path = some e) :
    e = { entry with time := c.now } := by
  have hdecode : Cache.Entry.decode? (Cache.Entry.encode { entry with time := c.now }) =
      some { entry with time := c.now } :=
    Cache.Entry.decode?_encode ⟨hfits.outline, hfits.translation⟩
  rcases h.kept with ⟨place, hhoused⟩ | hunfiled
  · obtain ⟨hkeep, hkept, -⟩ := hhoused.keep path entry
    rw [hkeep, hkept.remembers, Files.node?_put _ (by simp [entryPlace]), if_pos rfl] at he
    exact Option.some.inj (he.symm.trans hdecode)
  · rcases hunfiled.cases with ⟨reason, hstore⟩ | ⟨name, values, hstore⟩
    · rw [keep_of_error hstore, remembers_of_error hstore] at he
      cases he
    · rw [keep_of_memory hstore, remembers_of_memory rfl, Table.get?_insert, if_pos rfl] at he
      exact Option.some.inj (he.symm.trans hdecode)

/-- Entries of different files are stored in either order. -/
theorem keep_keep (h : Served output c f) (hne : path ≠ other)
    (htold : Cache.ToldApart path other) (entry entry' : Cache.Entry) :
    let first := c.keep f path entry
    let first' := c.keep f other entry'
    (first.1.keep first.2.1 other entry').1 = (first'.1.keep first'.2.1 path entry).1 ∧
      (first.1.keep first.2.1 other entry').2.1 = (first'.1.keep first'.2.1 path entry).2.1 := by
  intro first first'
  rcases h.kept with ⟨place, hhoused⟩ | hunfiled
  · obtain ⟨hkeep, hkept, -⟩ := hhoused.keep path entry
    obtain ⟨hkeep', hkept', -⟩ := hhoused.keep other entry'
    obtain ⟨hboth, -⟩ := hkept.keep other entry'
    obtain ⟨hboth', -⟩ := hkept'.keep path entry
    simp only [first, first', hkeep, hkeep', hboth, hboth']
    exact ⟨trivial, Files.put_comm (entryPlace_ne htold hne) _ _ f⟩
  · rcases hunfiled.cases with ⟨reason, hstore⟩ | ⟨name, values, hstore⟩
    · simp only [first, first', keep_of_error hstore, and_self]
    · simp only [first, first', keep_of_memory hstore]
      rw [keep_of_memory rfl, keep_of_memory rfl, Table.insert_comm (entryKey_ne htold hne)]
      exact ⟨rfl, rfl⟩

end Served

theorem Stock.keep_keep {s : Stock} (h : Served output s.cache s.files) (hne : path ≠ other)
    (htold : Cache.ToldApart path other) (entry entry' : Cache.Entry) :
    (s.keep path entry).keep other entry' = (s.keep other entry').keep path entry := by
  obtain ⟨hcache, hfiles⟩ := h.keep_keep hne htold entry entry'
  unfold Stock.keep
  dsimp only at hcache hfiles ⊢
  rw [hcache, hfiles]

namespace Served

/-- A look-up changes nothing but the counts. -/
theorem load (h : Served output c f) (path : Path) : (c.load f path).2.1 = c := by
  rcases h.steady with ⟨reason, hstore⟩ | hworking
  · rw [Cache.load, hstore]
  · exact hworking.load path

theorem snd_translation? (h : Served output c f) (path : Path) (digest : Digest) :
    (c.translation? f path digest).2.1 =
      c.count (c.translation? f path digest).1.isSome := by
  unfold Cache.translation?
  split
  · rfl
  · dsimp only
    rw [h.load path]

theorem count (h : Served output c f) (found : Bool) : Served output (c.count found) f :=
  h.congr (Cache.consulted_count c found).store

end Served

theorem count_count (c : Cache) (a b : Bool) : (c.count a).count b = (c.count b).count a := by
  cases a <;> cases b <;> rfl

/-- Storing an entry does not depend on the counts. -/
theorem keep_count (c : Cache) (f : Files) (path : Path) (entry : Cache.Entry) (found : Bool) :
    ((c.count found).keep f path entry).1 = (c.keep f path entry).1.count found ∧
      ((c.count found).keep f path entry).2.1 = (c.keep f path entry).2.1 := by
  obtain ⟨store, force, now, failure, hits, misses⟩ := c
  cases store with
  | error reason => cases found <;> exact ⟨rfl, rfl⟩
  | ok store =>
    have hset : (Cache.count ⟨.ok store, force, now, failure, hits, misses⟩ found).now = now := by
      cases found <;> rfl
    have hstore : (Cache.count ⟨.ok store, force, now, failure, hits, misses⟩ found).store =
        .ok store := by cases found <;> rfl
    unfold Cache.keep
    rw [hstore, hset]
    dsimp only
    cases store.set f (Cache.entryKey path) (Cache.Entry.encode { entry with time := now }) with
    | ok set => cases found <;> exact ⟨rfl, rfl⟩
    | error e => cases found <;> cases failure <;> exact ⟨rfl, rfl⟩

/-! ### Go files -/

namespace Served

variable {p : Layout.Placement}

theorem attempt (h : Served output c f) (hp : Proper p) (content : String) :
    Served output c (Layout.attempt f output p content).2 :=
  ⟨h.outputs.writes (Layout.writes_attempt f output p content),
    h.kept.imp_left fun ⟨place, hhoused⟩ =>
      ⟨place, (hhoused.attempt hp.module hp.file content).1⟩⟩

/-- What is remembered stays when a Go file is written. -/
theorem remembers_attempt (h : Served output c f) (hp : Proper p) (content : String)
    (path : Path) :
    c.remembers (Layout.attempt f output p content).2 path = c.remembers f path := by
  rcases h.kept with ⟨place, hhoused⟩ | hunfiled
  · have hlater := (hhoused.attempt hp.module hp.file content).1
    rw [hlater.remembers, hhoused.remembers,
      Layout.attempt_of_leads hhoused.leads ⟨hp.module, hp.file.isName⟩]
    dsimp only
    rcases Layout.node?_settled f place p content (entryPlace place path) with
      hsame | ⟨heq, -, -⟩ | ⟨heq, -, -⟩
    · rw [hsame]
    · simp [entryPlace, cacheNames] at heq
    · simp [entryPlace, cacheNames] at heq
  · exact hunfiled.remembers f _ path

/-- An entry and a Go file are written in either order. -/
theorem keep_attempt (h : Served output c f) (hp : Proper p) (content : String) (path : Path)
    (entry : Cache.Entry) :
    let kept := c.keep f path entry
    let written := Layout.attempt f output p content
    (Layout.attempt kept.2.1 output p content).1 = written.1 ∧
      (c.keep written.2 path entry).1 = kept.1 ∧
      (c.keep written.2 path entry).2.1 = (Layout.attempt kept.2.1 output p content).2 := by
  intro kept written
  rcases h.kept with ⟨place, hhoused⟩ | hunfiled
  · have hnamed : Layout.Named p := ⟨hp.module, hp.file.isName⟩
    obtain ⟨hkeep, hkept, -⟩ := hhoused.keep path entry
    have hlater := (hhoused.attempt hp.module hp.file content).1
    have hwritten : written = (Layout.fault? f output place p, Layout.settled f place p content) :=
      Layout.attempt_of_leads hhoused.leads hnamed content
    obtain ⟨hkeep', -, -⟩ := hlater.keep path entry
    have hkeepWritten : c.keep written.2 path entry = (c, written.2.put (entryPlace place path)
        (.file (Cache.Entry.encode { entry with time := c.now })), []) := hkeep'
    have hmodule : entryPlace place path ≠ place ++ [(p.module : RawText)] := by
      simp [entryPlace, cacheNames]
    have hfile : entryPlace place path ≠ place ++ [(p.module : RawText), p.fileName] := by
      simp [entryPlace, cacheNames]
    obtain ⟨hfault, hsettled⟩ := Layout.settled_put (by simp [entryPlace]) hmodule hfile f
      (.file (Cache.Entry.encode { entry with time := c.now })) output content
    rw [show kept = _ from hkeep, hkeepWritten]
    dsimp only
    rw [Layout.attempt_of_leads hkept.leads hnamed, hfault, hsettled, hwritten]
    exact ⟨rfl, rfl, rfl⟩
  · obtain ⟨-, hfiles, hcache⟩ := hunfiled.keep f path entry
    obtain ⟨-, hfiles', -⟩ := hunfiled.keep written.2 path entry
    refine ⟨?_, hcache _, ?_⟩
    · rw [hfiles]
    · rw [hfiles', hfiles]

/-- What a Go file holds stays when an entry is stored. -/
theorem holds_keep (h : Served output c f) (hp : Proper p) (content : String) (path : Path)
    (entry : Cache.Entry) :
    Layout.holds (c.keep f path entry).2.1 (Layout.targetPath output p) content =
      Layout.holds f (Layout.targetPath output p) content := by
  have hnamed : Layout.Named p := ⟨hp.module, hp.file.isName⟩
  rcases h.kept with ⟨place, hhoused⟩ | hunfiled
  · obtain ⟨hkeep, hkept, -⟩ := hhoused.keep path entry
    rw [hkeep, Bool.eq_iff_iff,
      Layout.holds_of_leads hkept.values.wellFormed hkept.leads hnamed,
      Layout.holds_of_leads h.outputs.wellFormed hhoused.leads hnamed,
      Files.node?_put _ (by simp [entryPlace]), if_neg (by simp [entryPlace, cacheNames])]
  · obtain ⟨-, hfiles, -⟩ := hunfiled.keep f path entry
    rw [hfiles]

end Served

end Served

end Recast.Run
