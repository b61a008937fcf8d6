/-
  Proofs/Cache/Sharing.lean --- a cache that several workers use at the same time.

  A change of an entry reads the store and writes to it later, and other workers may do something in
  between.  As long as they are about files that show as other texts nothing gets lost: what is known
  about a worker's own files is what its own errands made of it, at any time (`within_work`).  So
  every worker gets what it gets alone (`interleave_workers`).
-/
import Recast.Proofs.Cache.History
import Recast.Proofs.Run.Workers
import Recast.Proofs.Task

set_option autoImplicit false

namespace Recast.Cache

/-! ## Errands -/

/-- What a worker does with the cache about a file. -/
inductive Errand where
  | outline (path : Path) (digest : Digest)
  | translation (path : Path) (digest : Digest)
  | put (path : Path) (digest : Digest) (part : Part)
  | clearFile (path : Path)

/-- What a worker gets for an errand. -/
inductive Errand.Result where
  | outline (found : Option Outline)
  | translation (found : Option Translation)
  | nothing

namespace Errand

/-- The file that an errand is about. -/
def path : Errand → Path
  | outline path _ => path
  | translation path _ => path
  | put path _ _ => path
  | clearFile path => path

/-- An errand whose numbers fit machine words. -/
def Fits : Errand → Prop
  | put _ _ part => part.Fits
  | _ => True

/-- What the cache does on an errand. -/
def run : Errand → Cache × Files → Result × Cache × Files
  | outline path digest, s =>
    let (found, c, _) := s.1.outline? s.2 path digest
    (.outline found, c, s.2)
  | translation path digest, s =>
    let (found, c, _) := s.1.translation? s.2 path digest
    (.translation found, c, s.2)
  | put path digest part, s => (.nothing, (Change.put path digest part).apply s)
  | clearFile path, s => (.nothing, (Change.clearFile path).apply s)

/-- An errand in steps, in each of which the store is asked something or given something. -/
def task : Errand → Task (Cache × Files) Result
  | put path digest part => do
    let entry ← .act fun s =>
      let (entry, c, _) := s.1.load s.2 path
      (entry, c, s.2)
    .act fun s =>
      let (c, files, _) := s.1.keep s.2 path (part.change ((matching digest entry).getD { digest }))
      (.nothing, c, files)
  | e => .act e.run

/-- With nothing in between, the steps of an errand are what the cache does. -/
theorem run_task (e : Errand) (s : Cache × Files) : e.task.run s = e.run s := by
  cases e with
  | put path digest part =>
    rw [run, apply_put, update_eq]
    rfl
  | outline | translation | clearFile => rfl

end Errand

open Errand (Result)

/-- What a worker gets for its errands, and what the cache and the files are in the end, when nobody
else does anything. -/
def alone : List Errand → Cache × Files → List Result × Cache × Files
  | [], s => ([], s)
  | e :: rest, s =>
    let (result, s) := e.run s
    let (results, s) := alone rest s
    (result :: results, s)

/-- Errands one after the other, in steps. -/
def work : List Errand → Task (Cache × Files) (List Result)
  | [] => return []
  | e :: rest => do
    let result ← e.task
    let results ← work rest
    return result :: results

theorem run_work (errands : List Errand) (s : Cache × Files) :
    (work errands).run s = alone errands s := by
  induction errands generalizing s with
  | nil => rfl
  | cons e rest ih =>
    rw [work, Task.run_bind, Task.run_bind, Errand.run_task, ih]
    rfl

/-- The time that is written into entries changes. -/
def clock : List Timestamp → Task (Cache × Files) (List Result)
  | [] => return []
  | now :: rest => do
    .act fun s => ((), { s.1 with now }, s.2)
    clock rest

/-- A worker, with the files that are its own. -/
structure Worker where
  paths : List Path
  errands : List Errand
  own : ∀ e ∈ errands, e.path ∈ paths

/-- A worker that has nothing to do and no files. -/
def Worker.idle : Worker := ⟨[], [], nofun⟩

/-! ## What errands do to memos -/

namespace Errand

/-- What an errand gets, if this is known about its file. -/
def foretell (force : Bool) (m : Option Memo) : Errand → Result
  | outline _ digest => .outline ((Memo.about digest m).bind (·.outline))
  | translation _ digest =>
    .translation (if force then none else (Memo.about digest m).bind (·.translation))
  | put _ _ _ => .nothing
  | clearFile _ => .nothing

/-- What is known about files after an errand. -/
def learn (e : Errand) (known : Path → Option Memo) (path : Path) : Option Memo :=
  match e with
  | put p digest part => (Change.put p digest part).effect (·.text = path.text) (known path)
  | clearFile p => (Change.clearFile p).effect (·.text = path.text) (known path)
  | _ => known path

end Errand

/-- What errands get, if this is known about files. -/
def foretold (force : Bool) (known : Path → Option Memo) : List Errand → List Result
  | [] => []
  | e :: rest => e.foretell force (known e.path) :: foretold force (e.learn known) rest

/-- What is known about files after errands. -/
def learned (known : Path → Option Memo) (errands : List Errand) : Path → Option Memo :=
  errands.foldl (fun known e => e.learn known) known

/-! ## What is relied on -/

/-- A path shows as the same text as one of some paths. -/
def ShownAmong (paths : List Path) (path : Path) : Prop := ∃ own ∈ paths, own.text = path.text

/-- A cache that works and tells the keys of some files apart. -/
structure Sound (paths : List Path) (force : Bool) (s : Cache × Files) : Prop where
  working : Working s.1 s.2
  apart : ∀ p ∈ paths, ∀ q ∈ paths, s.1.Separates p q
  force : s.1.force = force

/-- Whatever happens to a sound cache, it goes on to be one, and to know about files of a kind what
it knew. -/
def Leaves (paths : List Path) (force : Bool) (kept : Path → Prop) (s s' : Cache × Files) : Prop :=
  Sound paths force s → Sound paths force s' ∧
    ∀ path ∈ paths, kept path → s'.1.memo? s'.2 path = s.1.memo? s.2 path

/-- A sound cache in which this is known about one's own files. -/
structure Knows (paths : List Path) (force : Bool) (own : List Path) (known : Path → Option Memo)
    (s : Cache × Files) : Prop where
  sound : Sound paths force s
  memo : ∀ path ∈ own, s.1.memo? s.2 path = known path

section

variable {paths own : List Path} {force : Bool} {known : Path → Option Memo}
  {s s' : Cache × Files} {c : Cache} {files : Files}

theorem steady_leaves (kept : Path → Prop) : Task.Steady (Leaves paths force kept) := by
  refine ⟨fun s hs => ⟨hs, fun _ _ _ => rfl⟩, fun {s t u} h h' hs => ?_⟩
  obtain ⟨ht, hmemo⟩ := h hs
  obtain ⟨hu, hmemo'⟩ := h' ht
  exact ⟨hu, fun path hpath hkept => (hmemo' path hpath hkept).trans (hmemo path hpath hkept)⟩

theorem Knows.leaves (h : Knows paths force own known s) (hown : own ⊆ paths)
    (hleaves : Leaves paths force (· ∈ own) s s') : Knows paths force own known s' := by
  obtain ⟨hsound, hmemo⟩ := hleaves h.sound
  exact ⟨hsound, fun path hpath => (hmemo path (hown hpath) hpath).trans (h.memo path hpath)⟩

/-- Where the store stays nothing gets known or forgotten. -/
theorem Sound.of_store {d : Cache} (h : Sound paths force (c, files)) (hstore : d.store = c.store)
    (hforce : d.force = c.force) :
    Sound paths force (d, files) ∧ ∀ path, d.memo? files path = c.memo? files path := by
  refine ⟨⟨?_, fun p hp q hq s hs => ?_, hforce.trans h.force⟩, memo?_congr hstore files⟩
  · obtain ⟨t, ht, hworks⟩ := h.working
    exact ⟨t, hstore.trans ht, hworks⟩
  · exact h.apart p hp q hq s (hstore.symm.trans hs)

theorem Knows.of_store {d : Cache} (h : Knows paths force own known (c, files))
    (hstore : d.store = c.store) (hforce : d.force = c.force) :
    Leaves paths force (¬ShownAmong own ·) (c, files) (d, files) ∧
      Knows paths force own known (d, files) := by
  obtain ⟨hsound, hmemo⟩ := h.sound.of_store hstore hforce
  exact ⟨fun _ => ⟨hsound, fun path _ _ => hmemo path⟩, hsound, fun path hpath =>
    (hmemo path).trans (h.memo path hpath)⟩

/-- The same is known about files that show as the same text. -/
theorem Knows.congr_text (h : Knows paths force own known (c, files)) {p q : Path} (hp : p ∈ own)
    (hq : q ∈ own) (htext : p.text = q.text) : known p = known q := by
  rw [← h.memo p hp, ← h.memo q hq, memo?, memo?, remembers_congr_key (entryKey_inj.2 htext)]

/-- A change of the entry of one's own file leaves the files of others, and it is known. -/
theorem Knows.amend (h : Knows paths force own known (c, files)) (hown : own ⊆ paths) {path : Path}
    (hpath : path ∈ own) {t : Store} {g : Files} {entry : Option Entry}
    (hworking : Working { c with store := .ok t } g)
    (hapart : ∀ p q, c.Separates p q → Separates { c with store := .ok t } p q)
    (hremembers : ∀ other, c.Separates path other →
      remembers { c with store := .ok t } g other =
        if path.text = other.text then entry else c.remembers files other) :
    Leaves paths force (¬ShownAmong own ·) (c, files) ({ c with store := .ok t }, g) ∧
      Knows paths force own (fun p => if path.text = p.text then entry.map Entry.memo else known p)
        ({ c with store := .ok t }, g) := by
  have hsound : Sound paths force ({ c with store := .ok t }, g) :=
    ⟨hworking, fun p hp q hq => hapart p q (h.sound.apart p hp q hq), h.sound.force⟩
  have hmemo (p : Path) (hp : p ∈ paths) : memo? { c with store := .ok t } g p =
      if path.text = p.text then entry.map Entry.memo else c.memo? files p := by
    rw [memo?, hremembers p (h.sound.apart path (hown hpath) p hp)]
    split
    · rfl
    · rfl
  refine ⟨fun _ => ⟨hsound, fun p hp hnot => ?_⟩, hsound, fun p hp => ?_⟩
  · rw [hmemo p hp, if_neg fun htext => hnot ⟨path, hpath, htext⟩]
  · rw [hmemo p (hown hp), h.memo p hp]

end

/-! ## Errands among others -/

/-- A working cache takes an entry for a file, with the time that it is then. -/
theorem Working.keep {c : Cache} {files : Files} (h : Working c files) (path : Path) {e : Entry}
    (hfits : e.Fits) :
    ∃ t g log, c.keep files path e = ({ c with store := .ok t }, g, log) ∧
      Working { c with store := .ok t } g ∧
      (∀ p q, c.Separates p q → Separates { c with store := .ok t } p q) ∧
      ∀ other, c.Separates path other → remembers { c with store := .ok t } g other =
        if path.text = other.text then some { e with time := c.now }
        else c.remembers files other := by
  have hfits' : ({ e with time := c.now } : Entry).Fits := ⟨hfits.outline, hfits.translation⟩
  obtain ⟨s, t, g, hstore, hset, hrest⟩ := h.set path hfits'
  refine ⟨t, g, [], ?_, hrest⟩
  unfold Cache.keep
  rw [hstore]
  dsimp only
  rw [hset]

section

variable {paths own : List Path} {force : Bool} {known : Path → Option Memo} {s : Cache × Files}

/-- Asking the cache changes nothing that is known, and what is known decides the answer. -/
theorem within_ask {α : Type} (hown : own ⊆ paths) (h : Knows paths force own known s)
    {f : Cache → Files → α × Cache} (hasks : ∀ c files, Consulted c (f c files).2) {P : α → Prop}
    (hanswer : ∀ c files, Knows paths force own known (c, files) → P (f c files).1) :
    (Task.act fun s : Cache × Files => ((f s.1 s.2).1, (f s.1 s.2).2, s.2)).Within
      (Leaves paths force (· ∈ own)) (Leaves paths force (¬ShownAmong own ·))
      (fun a s' => P a ∧ Knows paths force own known s') s := by
  refine .act fun s' hs' => ?_
  obtain ⟨c, files⟩ := s'
  have hknows := h.leaves hown hs'
  obtain ⟨hguar, hknows'⟩ := hknows.of_store (hasks c files).store (hasks c files).force
  exact ⟨hguar, fun u hu => ⟨hanswer c files hknows, hknows'.leaves hown hu⟩⟩

/-- An entry that was made from what was read before is what the part makes of what is known. -/
theorem learn_put {path p : Path} {digest : Digest} {part : Part} {entry : Option Entry}
    (hmemo : entry.map Entry.memo = known path) (hsame : path.text = p.text → known p = known path)
    (time : Timestamp) :
    (if path.text = p.text then
        (some { part.change ((matching digest entry).getD { digest }) with time }).map Entry.memo
      else known p) = (Errand.put path digest part).learn known p := by
  rw [Errand.learn, Change.effect]
  split
  · next htext => rw [Option.map_some, memo_change, hmemo, hsame htext]
  · rfl

/-- An entry that is read and put again with another half is what is known with that half. -/
theorem within_put (hown : own ⊆ paths) {path : Path} {digest : Digest} {part : Part}
    (hpath : path ∈ own) (hfits : (Errand.put path digest part).Fits)
    (h : Knows paths force own known s) :
    (Errand.put path digest part).task.Within (Leaves paths force (· ∈ own))
      (Leaves paths force (¬ShownAmong own ·))
      (fun result s' => result = .nothing ∧
        Knows paths force own ((Errand.put path digest part).learn known) s') s := by
  have hread := within_ask hown h (f := fun c files =>
      ((c.load files path).1, (c.load files path).2.1))
    (P := fun entry => entry.map Entry.memo = known path ∧ ∀ e, entry = some e → e.Fits)
    (fun c files => consulted_load c files path)
    fun c files hknows => ⟨hknows.memo path hpath, fun e => fits_of_remembers⟩
  refine hread.bind (steady_leaves _) fun entry s' hentry => ?_
  obtain ⟨⟨hmemo, hentryFits⟩, hknows'⟩ := hentry
  -- Until the entry is kept the file is left alone, so what was read is still known.
  refine .act fun u hu => ?_
  obtain ⟨c, files⟩ := u
  have hknows := hknows'.leaves hown hu
  obtain ⟨t, g, log, hkeep, hworking, hapart, hremembers⟩ :=
    hknows.sound.working.keep path (fits_change digest hentryFits hfits)
  obtain ⟨hguar, hafter⟩ := hknows.amend hown hpath hworking hapart hremembers
  have hlearned : Knows paths force own ((Errand.put path digest part).learn known)
      ({ c with store := .ok t }, g) :=
    ⟨hafter.sound, fun p hp => (hafter.memo p hp).trans
      (learn_put hmemo (fun htext => hknows.congr_text hp hpath htext.symm) c.now)⟩
  dsimp only
  rw [hkeep]
  exact ⟨hguar, fun v hv => ⟨rfl, hlearned.leaves hown hv⟩⟩

/-- What is known about the file of an errand decides what the worker gets for it, and the files of
others are left alone. -/
theorem within_task (hown : own ⊆ paths) {e : Errand} (hpath : e.path ∈ own) (hfits : e.Fits)
    (h : Knows paths force own known s) :
    e.task.Within (Leaves paths force (· ∈ own)) (Leaves paths force (¬ShownAmong own ·))
      (fun result s' => result = e.foretell force (known e.path) ∧
        Knows paths force own (e.learn known) s') s := by
  cases e with
  | outline path digest =>
    refine within_ask hown h (f := fun c files =>
      (Result.outline (c.outline? files path digest).1, (c.outline? files path digest).2.1))
      (P := (· = _)) (fun c files => consulted_outline? c files path digest)
      fun c files hknows => ?_
    rw [fst_outline?, Errand.foretell, Errand.path, ← hknows.memo path hpath, about_memo?,
      Option.bind_map]
    rfl
  | translation path digest =>
    refine within_ask hown h (f := fun c files =>
      (Result.translation (c.translation? files path digest).1,
        (c.translation? files path digest).2.1))
      (P := (· = _)) (fun c files => consulted_translation? c files path digest)
      fun c files hknows => ?_
    have hforce : c.force = force := hknows.sound.force
    rw [fst_translation?, Errand.foretell, Errand.path, ← hknows.memo path hpath, about_memo?,
      Option.bind_map, hforce]
    rfl
  | put path digest part => exact within_put hown hpath hfits h
  | clearFile path =>
    refine .act fun s' hs' => ?_
    obtain ⟨c, files⟩ := s'
    have hknows := h.leaves hown hs'
    obtain ⟨t, g, log, hclear, hworking, hapart, hremembers⟩ := hknows.sound.working.clearFile path
    obtain ⟨hguar, hafter⟩ := hknows.amend hown hpath hworking hapart hremembers
    rw [Errand.run, Change.apply]
    dsimp only
    rw [hclear]
    exact ⟨hguar, fun u hu => ⟨rfl, hafter.leaves hown hu⟩⟩

/-- Whatever others do with their files, errands get what is known about theirs. -/
theorem within_work (hown : own ⊆ paths) {errands : List Errand}
    (hpaths : ∀ e ∈ errands, e.path ∈ own) (hfits : ∀ e ∈ errands, e.Fits)
    (h : Knows paths force own known s) :
    (work errands).Within (Leaves paths force (· ∈ own)) (Leaves paths force (¬ShownAmong own ·))
      (fun results s' => results = foretold force known errands ∧
        Knows paths force own (learned known errands) s') s := by
  induction errands generalizing known s with
  | nil => exact .pure fun s' hs' => ⟨rfl, h.leaves hown hs'⟩
  | cons e rest ih =>
    have hfirst := within_task hown (hpaths e (.head _)) (hfits e (.head _)) h
    refine hfirst.bind (steady_leaves _) fun result s' hresult => ?_
    obtain ⟨rfl, hknows⟩ := hresult
    have hrest := ih (fun f hf => hpaths f (.tail _ hf)) (fun f hf => hfits f (.tail _ hf)) hknows
    refine hrest.bind (steady_leaves _) fun results u hresults => ?_
    obtain ⟨rfl, hknows'⟩ := hresults
    exact .pure fun v hv => ⟨rfl, hknows'.leaves hown hv⟩

/-- The clock leaves everything that is known. -/
theorem within_clock (ticks : List Timestamp) (h : Knows paths force [] known s) :
    (clock ticks).Within (Leaves paths force (· ∈ ([] : List Path)))
      (Leaves paths force (¬ShownAmong [] ·))
      (fun results s' => results = [] ∧ Knows paths force [] known s') s := by
  have hnone : [] ⊆ paths := List.nil_subset paths
  induction ticks generalizing s with
  | nil => exact .pure fun s' hs' => ⟨rfl, h.leaves hnone hs'⟩
  | cons now ticks ih =>
    have hset : (Task.act fun s : Cache × Files => ((), { s.1 with now }, s.2)).Within
        (Leaves paths force (· ∈ ([] : List Path))) (Leaves paths force (¬ShownAmong [] ·))
        (fun _ s' => Knows paths force [] known s') s := by
      refine .act fun s' hs' => ?_
      obtain ⟨c, files⟩ := s'
      have hstore : ({ c with now } : Cache).store = c.store := rfl
      obtain ⟨hguar, hknows⟩ := (h.leaves hnone hs').of_store hstore rfl
      exact ⟨hguar, fun u hu => hknows.leaves hnone hu⟩
    exact hset.bind (steady_leaves _) fun _ s' hs' => ih hs'

end

/-! ## Workers side by side -/

/-- A worker got what its errands get if this is known about files, and it is known about its own
files what that makes of it. -/
def Worker.Done (paths : List Path) (force : Bool) (known : Path → Option Memo) (w : Worker)
    (results : List Result) (s : Cache × Files) : Prop :=
  results = foretold force known w.errands ∧
    Knows paths force w.paths (learned known w.errands) s

section

variable {paths : List Path} {force : Bool} {s : Cache × Files}

theorem Leaves.mono {kept kept' : Path → Prop} {s' : Cache × Files}
    (h : Leaves paths force kept s s') (hsub : ∀ path, kept' path → kept path) :
    Leaves paths force kept' s s' := fun hs =>
  ⟨(h hs).1, fun path hpath hkept => (h hs).2 path hpath (hsub path hkept)⟩

/-- A worker that is alone is done. -/
theorem Worker.done_alone (h : Sound paths force s) {w : Worker} (hown : w.paths ⊆ paths)
    (hfits : ∀ e ∈ w.errands, e.Fits) :
    w.Done paths force (fun path => s.1.memo? s.2 path) (alone w.errands s).1
      (alone w.errands s).2 := by
  have hwithin := within_work hown w.own hfits ⟨h, fun _ _ => rfl⟩
  rw [← run_work]
  exact hwithin.run (steady_leaves _)

/-- Workers whose files show as different texts are done, whatever the order of their steps. -/
theorem done_interleave (h : Sound paths force s) {workers : List Worker}
    (hown : ∀ w ∈ workers, w.paths ⊆ paths) (hfits : ∀ w ∈ workers, ∀ e ∈ w.errands, e.Fits)
    (hdisjoint : workers.Pairwise fun v w => ∀ p ∈ v.paths, ∀ q ∈ w.paths, p.text ≠ q.text)
    {ticks : List Timestamp} {results : List (List Result)} {last : Cache × Files}
    (hinterleave : Task.Interleave (clock ticks :: workers.map fun w => work w.errands) s results
      last) :
    ∃ rest, results = [] :: rest ∧ List.Forall₂
      (fun w results => w.Done paths force (fun path => s.1.memo? s.2 path) results last)
      workers rest := by
  let relies (w : Worker) := Leaves paths force (· ∈ w.paths)
  let guars (w : Worker) := Leaves paths force (¬ShownAmong w.paths ·)
  have hagree : (Worker.idle :: workers).Pairwise (Task.Agree relies guars) := by
    refine List.pairwise_cons.2 ⟨fun w _ s s' => ⟨fun hguar => ?_, fun hguar => ?_⟩,
      hdisjoint.imp fun {v w} hvw s s' => ⟨fun hguar => ?_, fun hguar => ?_⟩⟩
    · exact hguar.mono fun _ _ ⟨_, hmem, _⟩ => List.not_mem_nil hmem
    · exact hguar.mono fun _ hmem => absurd hmem List.not_mem_nil
    · exact hguar.mono fun q hq ⟨p, hp, htext⟩ => hvw p hp q hq htext
    · exact hguar.mono fun p hp ⟨q, hq, htext⟩ => hvw p hp q hq htext.symm
  have hwithin : List.Forall₂ (fun w t => t.Within (relies w) (guars w)
      (w.Done paths force fun path => s.1.memo? s.2 path) s)
      (Worker.idle :: workers) (clock ticks :: workers.map fun w => work w.errands) := by
    refine .cons (within_clock ticks ⟨h, fun _ hmem => absurd hmem List.not_mem_nil⟩) ?_
    refine List.forall₂_map_right_iff.2 (List.forall₂_same.2 fun w hw => ?_)
    exact within_work (hown w hw) w.own (hfits w hw) ⟨h, fun _ _ => rfl⟩
  cases hinterleave.results (fun w => steady_leaves _) hagree hwithin with
  | cons hidle hrest => exact ⟨_, congrArg (· :: _) hidle.1, hrest⟩

end

/-- No update is lost between files that show as different texts.  Workers with such files get what
each of them gets alone, in whatever order their steps are done and whenever the time changes, and in
the end the cache knows about the files of each worker what it would know if nobody else had done
anything. -/
theorem interleave_workers {c : Cache} {files : Files} (hworking : Working c files)
    {workers : List Worker} (hfits : ∀ w ∈ workers, ∀ e ∈ w.errands, e.Fits)
    (hdisjoint : workers.Pairwise fun v w => ∀ p ∈ v.paths, ∀ q ∈ w.paths, p.text ≠ q.text)
    (hapart : ∀ v ∈ workers, ∀ p ∈ v.paths, ∀ w ∈ workers, ∀ q ∈ w.paths, c.Separates p q)
    {ticks : List Timestamp} {results : List (List Result)} {last : Cache × Files}
    (h : Task.Interleave (clock ticks :: workers.map fun w => work w.errands) (c, files) results
      last) :
    results = [] :: workers.map (fun w => (alone w.errands (c, files)).1) ∧
      ∀ w ∈ workers, ∀ path ∈ w.paths, last.1.memo? last.2 path =
        (alone w.errands (c, files)).2.1.memo? (alone w.errands (c, files)).2.2 path := by
  have hsound : Sound (workers.flatMap (·.paths)) c.force (c, files) := by
    refine ⟨hworking, fun p hp q hq => ?_, rfl⟩
    obtain ⟨v, hv, hpv⟩ := List.mem_flatMap.1 hp
    obtain ⟨w, hw, hqw⟩ := List.mem_flatMap.1 hq
    exact hapart v hv p hpv w hw q hqw
  have hown : ∀ w ∈ workers, w.paths ⊆ workers.flatMap (·.paths) := fun w hw path hpath =>
    List.mem_flatMap.2 ⟨w, hw, hpath⟩
  have halone (w : Worker) (hw : w ∈ workers) := w.done_alone hsound (hown w hw) (hfits w hw)
  obtain ⟨rest, rfl, hdone⟩ := done_interleave hsound hown hfits hdisjoint h
  refine ⟨congrArg ([] :: ·) ?_, fun w hw path hpath => ?_⟩
  · have hsame : List.Forall₂ (fun w results => results = (alone w.errands (c, files)).1) workers
        rest :=
      ((List.forall₂_and_left _ _).2 ⟨halone, hdone⟩).imp fun w results hw =>
        hw.2.1.trans hw.1.1.symm
    have hmap : List.Forall₂ (· = ·) rest
        (workers.map fun w => (alone w.errands (c, files)).1) :=
      List.forall₂_map_right_iff.2 hsame.flip
    rwa [List.forall₂_eq_eq_eq] at hmap
  · obtain ⟨results, -, -, hknows⟩ := Task.exists_of_mem_forall₂ hdone.flip hw
    rw [hknows.memo path hpath, (halone w hw).2.memo path hpath]

/-- Between the two steps of an update another worker does all its work, and the time changes. -/
theorem interleave_workers_between :
    let c : Cache := { store := .ok .memory }
    let later : Timestamp := ⟨"2024-01-02T03:04:05Z", by decide⟩
    let translation : Translation := ⟨"package b\n", ⟨"b", "b.go", "service", 1, .epoch⟩⟩
    let first : List Errand := [.put ⟨"a.py"⟩ ⟨"1"⟩ (.outline {}), .outline ⟨"a.py"⟩ ⟨"1"⟩]
    let second : List Errand :=
      [.put ⟨"b.py"⟩ ⟨"2"⟩ (.translation translation), .translation ⟨"b.py"⟩ ⟨"2"⟩]
    ∃ last, Task.Interleave [clock [later], work first, work second] (c, {})
        [[], [.nothing, .outline (some {})], [.nothing, .translation (some translation)]] last ∧
      last.1.memo? last.2 ⟨"a.py"⟩ = some { digest := ⟨"1"⟩, outline := some {} } ∧
      last.1.memo? last.2 ⟨"b.py"⟩ =
        some { digest := ⟨"2"⟩, translation := some translation } := by
  intro c later translation first second
  let workers : List Worker :=
    [⟨[⟨"a.py"⟩], first, by simp [first, Errand.path]⟩,
      ⟨[⟨"b.py"⟩], second, by simp [second, Errand.path]⟩]
  have hworking : Working c {} := working_memory rfl {}
  have hapart (p q : Path) : c.Separates p q := by
    rintro _ ⟨rfl⟩ _ ⟨⟩
  have hfits : ∀ w ∈ workers, ∀ e ∈ w.errands, e.Fits := by
    have houtline : ({} : Outline).Fits := ⟨nofun, nofun⟩
    simp [workers, first, second, Errand.Fits, Part.Fits, Origin.Fits, houtline, translation]
  have hdisjoint : workers.Pairwise fun v w => ∀ p ∈ v.paths, ∀ q ∈ w.paths, p.text ≠ q.text := by
    simp [workers]
  obtain ⟨change, next, hstep⟩ : ∃ change next, work first = .step change next := ⟨_, _, rfl⟩
  obtain ⟨results, last, hinterleave⟩ : ∃ results last,
      Task.Interleave [clock [later], work first, work second] (c, {}) results last :=
    ⟨_, _, hstep ▸ Task.interleave_between (clock [later]) (work second) change next (c, {})⟩
  obtain ⟨hresults, hmemo⟩ := interleave_workers hworking hfits hdisjoint
    (fun _ _ p _ _ _ q _ => hapart p q) hinterleave
  -- What the workers get alone is told by the memos, of which there are none at first.
  have hsound : Sound [⟨"a.py"⟩, ⟨"b.py"⟩] false (c, {}) :=
    ⟨hworking, fun p _ q _ => hapart p q, rfl⟩
  have hown : ∀ w ∈ workers, w.paths ⊆ [⟨"a.py"⟩, ⟨"b.py"⟩] := by simp [workers]
  have halone (w : Worker) (hw : w ∈ workers) := w.done_alone hsound (hown w hw) (hfits w hw)
  have hfirst := halone _ (.head _)
  have hsecond := halone _ (.tail _ (.head _))
  have hnew (path : Path) : c.memo? {} path = none := rfl
  refine ⟨last, ?_, ?_, ?_⟩
  · rw [hresults, List.map_cons, List.map_cons, List.map_nil, hfirst.1, hsecond.1] at hinterleave
    simpa [workers, first, second, foretold, Errand.foretell, Errand.path, Errand.learn,
      Change.effect, Memo.about, Memo.add, hnew, Option.filter_some] using hinterleave
  · refine (hmemo _ (.head _) _ (.head _)).trans ((hfirst.2.memo _ (.head _)).trans ?_)
    simp [first, learned, Errand.learn, Change.effect, Memo.about, Memo.add, hnew]
  · refine (hmemo _ (.tail _ (.head _)) _ (.head _)).trans
      ((hsecond.2.memo _ (.head _)).trans ?_)
    simp [second, learned, Errand.learn, Change.effect, Memo.about, Memo.add, hnew]

/-- The update of a worker is lost when another one has a file that shows as the same text. -/
theorem interleave_fails_shown :
    ¬∀ (c : Cache) (files : Files) (workers : List Worker) (ticks : List Timestamp)
      (results : List (List Result)) (last : Cache × Files), Working c files →
      (∀ w ∈ workers, ∀ e ∈ w.errands, e.Fits) →
      workers.Pairwise (fun v w => ∀ path ∈ v.paths, path ∉ w.paths) →
      (∀ v ∈ workers, ∀ p ∈ v.paths, ∀ w ∈ workers, ∀ q ∈ w.paths, c.Separates p q) →
      Task.Interleave (clock ticks :: workers.map fun w => work w.errands) (c, files) results last →
      ∀ w ∈ workers, ∀ path ∈ w.paths, last.1.memo? last.2 path =
        (alone w.errands (c, files)).2.1.memo? (alone w.errands (c, files)).2.2 path := by
  intro hclaim
  let c : Cache := { store := .ok .memory }
  let first : List Errand := [.put (.ofByte 0xFE) ⟨"1"⟩ (.outline {})]
  let second : List Errand := [.put (.ofByte 0xFF) ⟨"2"⟩ (.outline {})]
  let workers : List Worker :=
    [⟨[.ofByte 0xFE], first, by simp [first, Errand.path]⟩,
      ⟨[.ofByte 0xFF], second, by simp [second, Errand.path]⟩]
  have hworking : Working c {} := working_memory rfl {}
  have hapart (p q : Path) : c.Separates p q := by
    rintro _ ⟨rfl⟩ _ ⟨⟩
  have hfits : ∀ w ∈ workers, ∀ e ∈ w.errands, e.Fits := by
    have houtline : ({} : Outline).Fits := ⟨nofun, nofun⟩
    simp [workers, first, second, Errand.Fits, Part.Fits, houtline]
  have hne : Path.ofByte 0xFE ≠ .ofByte 0xFF := by decide
  have hmemo := hclaim c {} workers [] _ _ hworking hfits (by simp [workers, hne])
    (fun _ _ p _ _ _ q _ => hapart p q) (Task.interleave_runAll _ _)
  -- In the end the two files share one memo, whoever comes last.
  have hsound : Sound [.ofByte 0xFE, .ofByte 0xFF] false (c, {}) :=
    ⟨hworking, fun p _ q _ => hapart p q, rfl⟩
  have hown : ∀ w ∈ workers, w.paths ⊆ [.ofByte 0xFE, .ofByte 0xFF] := by simp [workers]
  have halone (w : Worker) (hw : w ∈ workers) := w.done_alone hsound (hown w hw) (hfits w hw)
  have hfirst := (hmemo _ (.head _) _ (.head _)).trans ((halone _ (.head _)).2.memo _ (.head _))
  have hsecond := (hmemo _ (.tail _ (.head _)) _ (.head _)).trans
    ((halone _ (.tail _ (.head _))).2.memo _ (.head _))
  have hnew (path : Path) : c.memo? {} path = none := rfl
  rw [memo?, remembers_congr_key (entryKey_inj.2 Path.text_ofByte), ← memo?, hsecond] at hfirst
  simp [first, second, learned, Errand.learn, Change.effect, Memo.about, Memo.add, hnew] at hfirst

end Recast.Cache
