/-
  Proofs/Cache/Store.lean --- what the cache remembers, and what its changes do to that.

  `remembers` is what a look-up finds, whatever the kind of store.  A change of one entry leaves
  every file with the entry it had, unless it is given the new one; that much holds even of a store
  that confuses keys.
-/
import Recast.Cache.Basic
import Recast.Proofs.Cache.EntryText
import Recast.Proofs.Files.Tree

set_option autoImplicit false

namespace Recast.Cache

/-- What is remembered about a file. -/
def remembers (c : Cache) (files : Files) (path : Path) : Option Entry := (c.load files path).1

namespace Store

/-- What a directory holds is what can be read from the file of the key. -/
theorem held?_directory {name : String} {path : Path} {refused : List Call} {f : Files}
    {key : String} {found : ByteArray} :
    (Store.mk name (.directory path) refused).held? f key = .ok (some found) ↔
      f.read (keyPath path key) = .ok found := by
  unfold held?
  dsimp only
  split
  · next content hread => rw [hread]; simp
  · next hread => rw [hread]; simp
  · next e _ hread => rw [hread]; simp

/-- What putting a value into a directory means. -/
theorem put_directory {name : String} {path : Path} {refused : List Call} {t : Store}
    {f g : Files} {key : String} {value : ByteArray} :
    (Store.mk name (.directory path) refused).put f key value = .ok (t, g) ↔
      t = ⟨name, .directory path, refused⟩ ∧ f.requireDirectory path = .ok () ∧
        f.replace (keyPath path key) value = .ok g := by
  unfold put onFile
  dsimp only
  cases hrequire : f.requireDirectory path with
  | error e =>
    change Except.error _ = Except.ok (t, g) ↔ _
    simp
  | ok u =>
    cases hreplace : f.replace (keyPath path key) value with
    | error e =>
      change Except.error _ = Except.ok (t, g) ↔ _
      simp
    | ok g' =>
      change Except.ok (Store.mk name (.directory path) refused, g') = Except.ok (t, g) ↔ _
      simp only [Except.ok.injEq, Prod.mk.injEq, true_and]
      exact ⟨fun h => ⟨h.1.symm, h.2⟩, fun h => ⟨h.1.symm, h.2⟩⟩

/-- A value that is put into a directory that is there replaces the file of its key. -/
theorem put_of_requireDirectory {path : Path} {f : Files} (h : f.requireDirectory path = .ok ())
    (name : String) (refused : List Call) (key : String) (value : ByteArray) :
    (Store.mk name (.directory path) refused).put f key value =
      (onFile (f.replace (keyPath path key) value)).map (⟨name, .directory path, refused⟩, ·) := by
  unfold put
  dsimp only
  rw [h]
  cases f.replace (keyPath path key) value <;> rfl

/-- What is held after a value was put is that value or was held before. -/
theorem held?_of_put {s t : Store} {f g : Files} {key other : String} {value found : ByteArray}
    (h : s.put f key value = .ok (t, g)) (hheld : t.held? g other = .ok (some found)) :
    found = value ∨ s.held? f other = .ok (some found) := by
  obtain ⟨name, medium, refused⟩ := s
  cases medium with
  | memory values =>
    obtain ⟨t', hput, hall⟩ := held?_memory_put name refused values f key other value
    rw [hput] at h
    cases h
    rw [hall, Except.ok.injEq] at hheld
    split at hheld
    · exact .inl (Option.some.inj hheld).symm
    · exact .inr (congrArg Except.ok hheld)
  | directory path =>
    obtain ⟨rfl, -, hreplace⟩ := put_directory.1 h
    have hread := held?_directory.1 hheld
    rcases Files.read_of_replace hreplace hread with rfl | hbefore
    · exact .inl rfl
    · exact .inr (held?_directory.2 hbefore)

/-- Putting a value does not change what the store refuses. -/
theorem refused_of_put {s t : Store} {f g : Files} {key : String} {value : ByteArray}
    (h : s.put f key value = .ok (t, g)) : t.refused = s.refused := by
  obtain ⟨name, medium, refused⟩ := s
  cases medium with
  | memory values =>
    cases h
    rfl
  | directory path =>
    obtain ⟨rfl, -⟩ := put_directory.1 h
    rfl

/-- A value is given when the store does not refuse to and holds it. -/
theorem get_eq_some {s : Store} {f : Files} {key : String} {found : ByteArray} :
    s.get f key = .ok (some found) ↔
      s.refused.contains .get = false ∧ s.held? f key = .ok (some found) := by
  unfold get permit
  cases s.refused.contains .get <;> simp [bind, Except.bind]

/-- What is given after a value was put is that value or was given before. -/
theorem get_of_put {s t : Store} {f g : Files} {key other : String} {value found : ByteArray}
    (h : s.put f key value = .ok (t, g)) (hget : t.get g other = .ok (some found)) :
    found = value ∨ s.get f other = .ok (some found) := by
  obtain ⟨hpermit, hheld⟩ := get_eq_some.1 hget
  rw [refused_of_put h] at hpermit
  exact (held?_of_put h hheld).imp_right fun hbefore => get_eq_some.2 ⟨hpermit, hbefore⟩

/-- A value that replaces another one is put. -/
theorem put_of_set {s t : Store} {f g : Files} {key : String} {value : ByteArray}
    (h : s.set f key value = .ok (t, g)) : s.put f key value = .ok (t, g) := by
  unfold set permit at h
  split at h
  · cases h
  · exact h

end Store

/-! ## Look-ups -/

/-- An entry is remembered when the store gives bytes that keep it. -/
theorem remembers_eq_some {c : Cache} {files : Files} {path : Path} {e : Entry} :
    c.remembers files path = some e ↔
      ∃ s bytes, c.store = .ok s ∧ s.get files (entryKey path) = .ok (some bytes) ∧
        Entry.decode? bytes = some e := by
  unfold remembers load
  cases hstore : c.store with
  | error reason => simp
  | ok s =>
    dsimp only
    cases hget : s.get files (entryKey path) with
    | error e => simp [hget]
    | ok found =>
      cases found with
      | none => simp [hget]
      | some bytes => cases hdecode : Entry.decode? bytes <;> simp [hget, hdecode]

/-- A new store in memory remembers nothing. -/
theorem remembers_eq_none_of_memory {c : Cache} (h : c.store = .ok .memory) (files : Files)
    (path : Path) : c.remembers files path = none := by
  refine Option.eq_none_iff_forall_ne_some.2 fun e he => ?_
  obtain ⟨s, bytes, hs, hget, -⟩ := remembers_eq_some.1 he
  rw [h] at hs
  cases hs
  cases (Store.get_eq_some.1 hget).2

/-- What is remembered depends on the store alone. -/
theorem remembers_congr {c d : Cache} (h : d.store = c.store) (files : Files) (path : Path) :
    d.remembers files path = c.remembers files path := by
  refine Option.ext fun e => ?_
  rw [remembers_eq_some, remembers_eq_some, h]

/-- Files with the same key share what is remembered. -/
theorem remembers_congr_key {path other : Path} (h : entryKey path = entryKey other) (c : Cache)
    (files : Files) : c.remembers files path = c.remembers files other := by
  refine Option.ext fun e => ?_
  rw [remembers_eq_some, remembers_eq_some, h]

/-- What is remembered fits its bytes. -/
theorem fits_of_remembers {c : Cache} {files : Files} {path : Path} {e : Entry}
    (h : c.remembers files path = some e) : e.Fits := by
  obtain ⟨s, bytes, -, -, hdecode⟩ := remembers_eq_some.1 h
  exact Entry.fits_of_decode? hdecode

/-- A cache that was only asked: its counts may have changed, and a first failure may have been
written down. -/
def Consulted (c d : Cache) : Prop :=
  (∃ failure hits misses, d = { c with failure, hits, misses }) ∧
    (d.failure = none → c.failure = none)

namespace Consulted

theorem refl (c : Cache) : Consulted c c := ⟨⟨c.failure, c.hits, c.misses, rfl⟩, id⟩

theorem trans {c d e : Cache} (h : Consulted c d) (h' : Consulted d e) : Consulted c e := by
  obtain ⟨⟨_, _, _, rfl⟩, hfailure⟩ := h
  obtain ⟨⟨failure, hits, misses, rfl⟩, hfailure'⟩ := h'
  exact ⟨⟨failure, hits, misses, rfl⟩, fun he => hfailure (hfailure' he)⟩

theorem store {c d : Cache} (h : Consulted c d) : d.store = c.store := by
  obtain ⟨⟨_, _, _, rfl⟩, -⟩ := h
  rfl

theorem force {c d : Cache} (h : Consulted c d) : d.force = c.force := by
  obtain ⟨⟨_, _, _, rfl⟩, -⟩ := h
  rfl

theorem remembers {c d : Cache} (h : Consulted c d) (files : Files) (path : Path) :
    d.remembers files path = c.remembers files path :=
  remembers_congr h.store files path

end Consulted

theorem consulted_reportFailure (c : Cache) (e : StoreError) : Consulted c (c.reportFailure e).1 := by
  unfold reportFailure
  split
  · exact .refl c
  · next hfailure => exact ⟨⟨_, c.hits, c.misses, rfl⟩, fun _ => hfailure⟩

theorem failure_reportFailure (c : Cache) (e : StoreError) : (c.reportFailure e).1.failure ≠ none := by
  unfold reportFailure
  split
  · next text htext => rw [htext]; exact nofun
  · exact nofun

theorem consulted_load (c : Cache) (files : Files) (path : Path) :
    Consulted c (c.load files path).2.1 := by
  unfold load
  repeat' split
  all_goals first | exact consulted_reportFailure c _ | exact .refl c

theorem consulted_count (c : Cache) (found : Bool) : Consulted c (c.count found) := by
  unfold count
  split
  · exact ⟨⟨c.failure, c.hits + 1, c.misses, rfl⟩, id⟩
  · exact ⟨⟨c.failure, c.hits, c.misses + 1, rfl⟩, id⟩

/-- What is found when a translation is asked for. -/
theorem fst_translation? (c : Cache) (files : Files) (path : Path) (digest : Digest) :
    (c.translation? files path digest).1 =
      if c.force then none else (matching digest (c.remembers files path)).bind (·.translation) := by
  unfold translation? remembers
  split <;> rfl

theorem consulted_translation? (c : Cache) (files : Files) (path : Path) (digest : Digest) :
    Consulted c (c.translation? files path digest).2.1 := by
  unfold translation?
  split
  · exact consulted_count c false
  · exact (consulted_load c files path).trans (consulted_count _ _)

/-- What is found when an outline is asked for. -/
theorem fst_outline? (c : Cache) (files : Files) (path : Path) (digest : Digest) :
    (c.outline? files path digest).1 =
      (matching digest (c.remembers files path)).bind (·.outline) := rfl

theorem consulted_outline? (c : Cache) (files : Files) (path : Path) (digest : Digest) :
    Consulted c (c.outline? files path digest).2.1 :=
  consulted_load c files path

/-! ## Changes -/

/-- The entry of a file after a change of what is remembered about content of a digest. -/
def nextEntry (c : Cache) (files : Files) (path : Path) (digest : Digest)
    (change : Entry → Entry) : Entry :=
  { change ((matching digest (c.remembers files path)).getD { digest }) with time := c.now }

/-- How a change of an entry ends: the store takes the new entry, or it stays as it is, which a
store that is there only does when it fails. -/
theorem update_cases (c : Cache) (files : Files) (path : Path) (digest : Digest)
    (change : Entry → Entry) :
    (Consulted c (c.update files path digest change).1 ∧
      (c.update files path digest change).2.1 = files ∧
      (c.isAvailable = true → (c.update files path digest change).1.failure ≠ none)) ∨
    (∃ s t d, c.store = .ok s ∧ Consulted c d ∧
      (c.update files path digest change).1 = { d with store := .ok t } ∧
      s.put files (entryKey path) (c.nextEntry files path digest change).encode =
        .ok (t, (c.update files path digest change).2.1)) := by
  unfold update
  split
  · next reason hstore =>
    refine .inl ⟨.refl c, rfl, fun havailable => ?_⟩
    rw [isAvailable, hstore] at havailable
    cases havailable
  · next s hstore =>
    have hload := consulted_load c files path
    have hentry : { change ((matching digest (c.load files path).1).getD { digest }) with
        time := (c.load files path).2.1.now } = c.nextEntry files path digest change := by
      obtain ⟨⟨_, _, _, hc⟩, -⟩ := hload
      rw [hc]
      rfl
    dsimp only at hentry ⊢
    rw [hentry]
    split
    · next t g hset => exact .inr ⟨s, t, _, hstore, hload, rfl, Store.put_of_set hset⟩
    · next e _ =>
      exact .inl ⟨hload.trans (consulted_reportFailure _ e), rfl, fun _ => failure_reportFailure _ e⟩

/-- What is remembered after a change is the changed entry or was remembered before. -/
theorem remembers_of_update {c : Cache} {files : Files} {path : Path} {digest : Digest}
    {change : Entry → Entry} (hfits : (c.nextEntry files path digest change).Fits)
    {other : Path} {e : Entry}
    (h : (c.update files path digest change).1.remembers
      (c.update files path digest change).2.1 other = some e) :
    e = c.nextEntry files path digest change ∨ c.remembers files other = some e := by
  rcases update_cases c files path digest change with ⟨hcache, hfiles, -⟩ |
      ⟨s, t, d, hstore, -, hcache, hput⟩
  · rw [hfiles, hcache.remembers] at h
    exact .inr h
  · obtain ⟨t', bytes, ht, hget, hdecode⟩ := remembers_eq_some.1 h
    rw [hcache] at ht
    cases ht
    rcases Store.get_of_put hput hget with rfl | hbefore
    · rw [Entry.decode?_encode hfits] at hdecode
      exact .inl (Option.some.inj hdecode).symm
    · exact .inr (remembers_eq_some.2 ⟨s, bytes, hstore, hbefore, hdecode⟩)

end Recast.Cache
