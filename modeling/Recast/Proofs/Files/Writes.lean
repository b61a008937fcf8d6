/-
  Proofs/Files/Writes.lean --- what changes of a tree do to the rest of it.

  An operation on a path changes at most what is at its place, and makes directories where nothing
  was (`Writes`).  So a file elsewhere is still read as it was (`Writes.read`).
-/
import Recast.Proofs.Files.Place

set_option autoImplicit false

namespace Recast.Files

/-! ## Writes -/

/-- One tree is made from another one by making directories where nothing was and by writing files
to places of a kind. -/
structure Writes (W : List RawText → Prop) (f g : Files) : Prop where
  here : g.here = f.here
  wellFormed : f.WellFormed → g.WellFormed
  node : ∀ place, g.node? place = f.node? place ∨
    (f.node? place = none ∧ g.node? place = some .directory) ∨
    (W place ∧ f.node? place ≠ some .directory ∧ ∃ content, g.node? place = some (.file content))

namespace Writes

variable {W V : List RawText → Prop} {f g k : Files}

theorem refl (W : List RawText → Prop) (f : Files) : Writes W f f :=
  ⟨rfl, id, fun _ => .inl rfl⟩

theorem mono (h : Writes W f g) (hsub : ∀ place, W place → V place) : Writes V f g :=
  ⟨h.here, h.wellFormed, fun place => (h.node place).imp_right (Or.imp_right fun hw => ⟨hsub place hw.1, hw.2⟩)⟩

theorem trans (h : Writes W f g) (h' : Writes W g k) : Writes W f k := by
  refine ⟨h'.here.trans h.here, fun hf => h'.wellFormed (h.wellFormed hf), fun place => ?_⟩
  rcases h.node place with hsame | ⟨hnone, hdir⟩ | ⟨hw, hnot, content, hfile⟩
  · have hafter := h'.node place
    rwa [hsame] at hafter
  · rcases h'.node place with hsame' | ⟨hnone', -⟩ | ⟨-, hnot', -⟩
    · exact .inr (.inl ⟨hnone, hsame'.trans hdir⟩)
    · rw [hdir] at hnone'
      cases hnone'
    · exact absurd hdir hnot'
  · rcases h'.node place with hsame' | ⟨hnone', -⟩ | ⟨-, -, hfile'⟩
    · exact .inr (.inr ⟨hw, hnot, content, hsame'.trans hfile⟩)
    · rw [hfile] at hnone'
      cases hnone'
    · exact .inr (.inr ⟨hw, hnot, hfile'⟩)

/-- Directories stay. -/
theorem directory (h : Writes W f g) {place : List RawText}
    (hdir : f.node? place = some .directory) : g.node? place = some .directory := by
  rcases h.node place with hsame | ⟨-, hdir'⟩ | ⟨-, hnot, -⟩
  · exact hsame.trans hdir
  · exact hdir'
  · exact absurd hdir hnot

/-- What is at a place that is not written to stays, if something is there. -/
theorem node_eq (h : Writes W f g) {place : List RawText} (hw : ¬W place)
    (hsome : f.node? place ≠ none) : g.node? place = f.node? place := by
  rcases h.node place with hsame | ⟨hnone, -⟩ | ⟨hw', -⟩
  · exact hsame
  · exact absurd hnone hsome
  · exact absurd hw' hw

/-- A file was there before, or it was written. -/
theorem file_before (h : Writes W f g) {place : List RawText} (hw : ¬W place) {content : ByteArray}
    (hfile : g.node? place = some (.file content)) : f.node? place = some (.file content) := by
  rcases h.node place with hsame | ⟨-, hdir⟩ | ⟨hw', -⟩
  · exact hsame.symm.trans hfile
  · rw [hfile] at hdir
    cases hdir
  · exact absurd hw' hw

theorem placeOf (h : Writes W f g) (p : Path) : g.placeOf p = f.placeOf p := by
  rw [Files.placeOf, Files.placeOf, h.here]

theorem target (h : Writes W f g) {p : Path} {q : List RawText} (htarget : f.target p = .ok q) :
    g.target p = .ok q :=
  target_mono h.here (fun _ => h.directory) htarget

/-- A path still finds the directory that it found. -/
theorem find_directory (h : Writes W f g) {p : Path} {q : List RawText}
    (hfind : f.find p = .ok (q, .directory)) : g.find p = .ok (q, .directory) := by
  obtain ⟨htarget, hnode, hname⟩ := find_eq_ok.1 hfind
  exact find_eq_ok.2 ⟨h.target htarget, h.directory hnode, hname⟩

/-- A file at a place that is not written to is read as before. -/
theorem read (h : Writes W f g) {p : Path} {content : ByteArray} (hread : f.read p = .ok content)
    (hw : ¬W (f.placeOf p)) : g.read p = .ok content := by
  obtain ⟨q, htarget, hnode, hname⟩ := read_eq_ok.1 hread
  have hq := target_eq_ok htarget
  refine read_eq_ok.2 ⟨q, h.target htarget, ?_, hname⟩
  rw [h.node_eq (hq ▸ hw) (hnode ▸ Option.some_ne_none _), hnode]

end Writes

/-! ## Operations -/

variable {W : List RawText → Prop} {f g : Files}

theorem writes_makeDirectory {p : Path} (h : f.makeDirectory p = .ok g) :
    Writes W f g ∧ g.isDirectory p = true := by
  unfold makeDirectory at h
  cases htarget : f.target p with
  | error e =>
    rw [htarget] at h
    cases h
  | ok q =>
    rw [htarget] at h
    dsimp only [bind, Except.bind, pure, Except.pure] at h
    split at h
    · cases h
    · next hnone =>
      cases h
      rw [Bool.not_eq_true, Option.isSome_eq_false_iff, Option.isNone_iff_eq_none] at hnone
      have hq : q ≠ [] := ne_nil_of_node?_ne (by rw [hnone]; exact nofun)
      have hwrites : Writes W f (f.put q .directory) := by
        refine ⟨rfl, fun hf => hf.put (hf.reached_target htarget) ?_ _, fun place => ?_⟩
        · rw [hnone]
          exact nofun
        rw [node?_put f hq]
        split
        · next heq => exact .inr (.inl ⟨heq ▸ hnone, rfl⟩)
        · exact .inl rfl
      have hfind : (f.put q .directory).find p = .ok (q, .directory) := by
        refine find_eq_ok.2 ⟨hwrites.target htarget, ?_, nofun⟩
        rw [node?_put f hq, if_pos rfl]
      exact ⟨hwrites, by rw [isDirectory, hfind]⟩

theorem writes_makeLast (f : Files) (p : Path) : Writes W f (f.makeLast p).2 := by
  unfold makeLast
  split
  · next g hmade => exact (writes_makeDirectory hmade).1
  · exact .refl W f

/-- A directory that was made is there. -/
theorem isDirectory_of_makeLast {p : Path} (h : f.makeLast p = (.ok (), g)) :
    g.isDirectory p = true := by
  unfold makeLast at h
  split at h
  · next made hmade =>
    cases h
    exact (writes_makeDirectory (W := fun _ => False) hmade).2
  · split at h
    · next hdir =>
      cases h
      exact hdir
    · cases h

theorem writes_makeAbove (f : Files) (cs : List Path.Component) : Writes W f (f.makeAbove cs).2 := by
  induction cs with
  | nil => exact .refl W f
  | cons c cs ih =>
    unfold makeAbove
    dsimp only
    split
    · split
      · next made habove =>
        rw [habove] at ih
        exact ih.trans (writes_makeLast made _)
      · exact ih
    · exact writes_makeLast f _

theorem isDirectory_of_makeAbove {cs : List Path.Component} (h : f.makeAbove cs = (.ok (), g))
    (hne : cs ≠ []) : g.isDirectory (Path.ofComponents cs.reverse) = true := by
  cases cs with
  | nil => exact absurd rfl hne
  | cons c cs =>
    unfold makeAbove at h
    dsimp only at h
    split at h
    · split at h
      · exact isDirectory_of_makeLast h
      · next hfailed => exact absurd h (hfailed g)
    · exact isDirectory_of_makeLast h

/-- Directories are made, and nothing else is changed, whether or not all of them are. -/
theorem writes_makeDirectories (f : Files) (p : Path) : Writes W f (f.makeDirectories p).2 :=
  writes_makeAbove f _

/-- What a change in a directory that is made first changes. -/
theorem writes_changeIn {ε : Type} {directory : Path} {fault : FileError → ε}
    {change : Files → Except ε Files}
    (h : ∀ made, Writes W f made → ∀ g, change made = .ok g → Writes W made g) :
    Writes W f (f.changeIn directory fault change).2 := by
  have hmade : Writes W f (f.makeDirectories directory).2 := writes_makeDirectories f directory
  unfold changeIn
  split
  · next heq =>
    rw [heq] at hmade
    exact hmade
  · next made heq =>
    rw [heq] at hmade
    split
    · next g hchange => exact hmade.trans (h made hmade g hchange)
    · exact hmade

theorem changeIn_eq_ok {ε : Type} {directory : Path} {fault : FileError → ε}
    {change : Files → Except ε Files} :
    f.changeIn directory fault change = (.ok (), g) ↔
      ∃ made, f.makeDirectories directory = (.ok (), made) ∧ change made = .ok g := by
  unfold changeIn
  split
  · next heq => simp [heq]
  · next made heq =>
    rw [heq]
    split
    · next k hchange => simp [hchange]
    · next e hchange => simp [hchange]

theorem writes_put_file {p : Path} {q : List RawText} (htarget : f.target p = .ok q)
    (h : f.node? q ≠ some .directory) (content : ByteArray) :
    Writes (· = q) f (f.put q (.file content)) := by
  refine ⟨rfl, fun hf => hf.put (hf.reached_target htarget) h _, fun place => ?_⟩
  rw [node?_put_file h]
  split
  · next heq => exact .inr (.inr ⟨heq, heq ▸ h, content, rfl⟩)
  · exact .inl rfl

theorem writes_replace {p : Path} {content : ByteArray} (h : f.replace p content = .ok g) :
    Writes (· = f.placeOf p) f g := by
  obtain ⟨q, htarget, -, hnode, rfl⟩ := replace_eq_ok.1 h
  rw [← target_eq_ok htarget]
  exact writes_put_file htarget hnode content

theorem writes_write {p : Path} {content : ByteArray} (h : f.write p content = .ok g) :
    Writes (· = f.placeOf p) f g := by
  unfold write at h
  cases htarget : f.target p with
  | error e =>
    rw [htarget] at h
    cases h
  | ok q =>
    rw [← target_eq_ok htarget]
    rw [htarget] at h
    dsimp only [bind, Except.bind, pure, Except.pure] at h
    split at h
    · cases h
    · next hnot =>
      split at h
      · cases h
      · cases h
        exact writes_put_file htarget hnot content

end Recast.Files
