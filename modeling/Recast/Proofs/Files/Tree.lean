/-
  Proofs/Files/Tree.lean --- where paths lead, and what changes of a tree leave alone.

  Where a path leads is decided by the path alone (`follow_eq_walk`); the tree only decides whether
  it gets there, and it still does in a tree with more directories (`follow_mono`).
-/
import Recast.Files.Tree

set_option autoImplicit false

namespace Recast.Files

/-- Steps of which each may fail succeed when all of them do. -/
theorem bind_eq_ok {ε α β : Type} {x : Except ε α} {f : α → Except ε β} {b : β} :
    x >>= f = .ok b ↔ ∃ a, x = .ok a ∧ f a = .ok b := by
  cases x with
  | error e => exact ⟨nofun, nofun⟩
  | ok a => exact ⟨fun h => ⟨a, rfl, h⟩, fun ⟨_, ha, h⟩ => Except.ok.inj ha ▸ h⟩

/-- A step succeeds whatever its failures are turned into. -/
theorem mapError_eq_ok {ε ε' α : Type} {g : ε → ε'} {x : Except ε α} {a : α} :
    x.mapError g = .ok a ↔ x = .ok a := by
  cases x with
  | error e => exact ⟨nofun, nofun⟩
  | ok b =>
    constructor <;> intro h <;> cases h <;> rfl

/-! ## Where a path leads -/

/-- The place that the components of a path lead to from a place. -/
def walk : List RawText → List Path.Component → List RawText
  | place, [] => place
  | _, .root :: rest => walk [] rest
  | place, .current :: rest => walk place rest
  | place, .up :: rest => walk place.dropLast rest
  | place, .normal name :: rest => walk (place ++ [name]) rest

/-- A path that can be followed leads where its components lead. -/
theorem follow_eq_walk {f : Files} {place : List RawText} {cs : List Path.Component}
    {q : List RawText} (h : f.follow place cs = .ok q) : q = walk place cs := by
  induction cs generalizing place with
  | nil =>
    cases h
    rfl
  | cons c rest ih =>
    unfold follow at h
    split at h
    · cases h
    · cases h
    · cases c with
      | root => exact ih h
      | current => exact ih h
      | up => exact ih h
      | normal name =>
        dsimp only at h
        split at h
        · cases h
        · exact ih h

/-- A path that can be followed in a tree can be followed in one with more directories. -/
theorem follow_mono {f g : Files}
    (hdirs : ∀ place, f.node? place = some .directory → g.node? place = some .directory)
    {place : List RawText} {cs : List Path.Component} {q : List RawText}
    (h : f.follow place cs = .ok q) : g.follow place cs = .ok q := by
  induction cs generalizing place with
  | nil => exact h
  | cons c rest ih =>
    unfold follow at h ⊢
    split at h
    · cases h
    · cases h
    · next hnode =>
      rw [hdirs place hnode]
      cases c with
      | root => exact ih h
      | current => exact ih h
      | up => exact ih h
      | normal name =>
        dsimp only at h ⊢
        split at h
        · cases h
        · next hsize =>
          rw [if_neg hsize]
          exact ih h

/-- A path leads to the same place in a tree with more directories. -/
theorem target_mono {f g : Files} (hhere : g.here = f.here)
    (hdirs : ∀ place, f.node? place = some .directory → g.node? place = some .directory)
    {p : Path} {q : List RawText} (h : f.target p = .ok q) : g.target p = .ok q := by
  unfold target at h ⊢
  split at h
  · cases h
  · next hp =>
    rw [if_neg hp, hhere]
    exact follow_mono hdirs h

/-! ## What a path leads to -/

/-- What finding something means: the path leads there, and a path that names a directory finds
no file. -/
theorem find_eq_ok {f : Files} {p : Path} {q : List RawText} {node : Node} :
    f.find p = .ok (q, node) ↔
      f.target p = .ok q ∧ f.node? q = some node ∧
        (node ≠ .directory → namesDirectory p = false) := by
  unfold find
  cases htarget : f.target p with
  | error e => simp [bind, Except.bind]
  | ok place =>
    simp only [bind, Except.bind, Except.ok.injEq]
    cases hnode : f.node? place with
    | none => constructor <;> intro h <;> simp_all
    | some found =>
      cases found with
      | directory => constructor <;> intro h <;> simp_all [pure, Except.pure]
      | file content =>
        cases hname : namesDirectory p <;> constructor <;> intro h <;>
          simp_all [pure, Except.pure]

/-- What reading a file means. -/
theorem read_eq_ok {f : Files} {p : Path} {content : ByteArray} :
    f.read p = .ok content ↔
      ∃ q, f.target p = .ok q ∧ f.node? q = some (.file content) ∧ namesDirectory p = false := by
  constructor
  · intro h
    unfold read at h
    cases hfind : f.find p with
    | error e =>
      rw [hfind] at h
      cases h
    | ok found =>
      obtain ⟨q, node⟩ := found
      rw [hfind] at h
      obtain ⟨htarget, hnode, hname⟩ := find_eq_ok.1 hfind
      cases node with
      | directory => cases h
      | file c =>
        cases h
        exact ⟨q, htarget, hnode, hname Node.noConfusion⟩
  · rintro ⟨q, htarget, hnode, hname⟩
    have hfind : f.find p = .ok (q, .file content) := find_eq_ok.2 ⟨htarget, hnode, fun _ => hname⟩
    rw [read, hfind]
    rfl

/-- New files can only be put into a directory that is found. -/
theorem find_of_requireDirectory {f : Files} {p : Path} (h : f.requireDirectory p = .ok ()) :
    ∃ place, f.find p = .ok (place, .directory) := by
  unfold requireDirectory at h
  cases hfind : f.find p with
  | error e =>
    rw [hfind] at h
    cases h
  | ok found =>
    obtain ⟨place, node⟩ := found
    rw [hfind] at h
    cases node with
    | file content => cases h
    | directory => exact ⟨place, rfl⟩

/-! ## Changes of a tree -/

/-- The root is always there. -/
@[simp] theorem node?_root (f : Files) : f.node? [] = some .directory := rfl

theorem ne_nil_of_node?_ne {f : Files} {place : List RawText}
    (h : f.node? place ≠ some .directory) : place ≠ [] := by
  rintro rfl
  exact h rfl

/-- What putting a complete file somewhere means. -/
theorem replace_eq_ok {f g : Files} {p : Path} {content : ByteArray} :
    f.replace p content = .ok g ↔
      ∃ q, f.target p = .ok q ∧ namesDirectory p = false ∧ f.node? q ≠ some .directory ∧
        g = f.put q (.file content) := by
  unfold replace
  cases htarget : f.target p with
  | error e => simp [bind, Except.bind]
  | ok q =>
    simp only [bind, Except.bind, Except.ok.injEq]
    cases hname : namesDirectory p with
    | true => simp
    | false =>
      cases hnode : f.node? q with
      | none => constructor <;> intro h <;> simp_all [pure, Except.pure]
      | some node => cases node <;> constructor <;> intro h <;> simp_all [pure, Except.pure]

/-- What a file was put in the place of stays where it was for every directory. -/
theorem node?_put_file {f : Files} {q : List RawText} (h : f.node? q ≠ some .directory)
    (content : ByteArray) (other : List RawText) :
    (f.put q (.file content)).node? other =
      if other = q then some (.file content) else f.node? other :=
  node?_put f (ne_nil_of_node?_ne h) _ other

theorem directory_put_file {f : Files} {q : List RawText} (h : f.node? q ≠ some .directory)
    (content : ByteArray) (place : List RawText) :
    (f.put q (.file content)).node? place = some .directory ↔ f.node? place = some .directory := by
  rw [node?_put_file h]
  split
  · next heq =>
    subst heq
    constructor
    · intro hfile
      cases hfile
    · intro hdirectory
      exact absurd hdirectory h
  · exact Iff.rfl

/-- A file that was put in its place is read there. -/
theorem read_replace {f g : Files} {p : Path} {content : ByteArray}
    (h : f.replace p content = .ok g) : g.read p = .ok content := by
  obtain ⟨q, htarget, hname, hnode, rfl⟩ := replace_eq_ok.1 h
  refine read_eq_ok.2 ⟨q, ?_, ?_, hname⟩
  · exact target_mono (f := f) (g := f.put q (.file content)) rfl
      (fun place => (directory_put_file hnode content place).2) htarget
  · rw [node?_put_file hnode, if_pos rfl]

/-- What is read after a file was put somewhere is that file or was there before. -/
theorem read_of_replace {f g : Files} {p other : Path} {content found : ByteArray}
    (h : f.replace p content = .ok g) (hread : g.read other = .ok found) :
    found = content ∨ f.read other = .ok found := by
  obtain ⟨q, htarget, hname, hnode, rfl⟩ := replace_eq_ok.1 h
  obtain ⟨place, hplace, hfile, hother⟩ := read_eq_ok.1 hread
  rw [node?_put_file hnode] at hfile
  split at hfile
  · cases hfile
    exact .inl rfl
  · refine .inr (read_eq_ok.2 ⟨place, ?_, hfile, hother⟩)
    exact target_mono (f := f.put q (.file content)) (g := f) rfl
      (fun place => (directory_put_file hnode content place).1) hplace

end Recast.Files
