/-
  Proofs/Files/Remove.lean --- the names in a directory, and trees without some of their files.
-/
import Recast.Proofs.Files.Place
import Recast.Proofs.Table

set_option autoImplicit false

namespace Recast.Files

/-- The name of what is at some names, if that is in the directory itself. -/
def childName? (place names : List RawText) : Option RawText :=
  if place.isPrefixOf names ∧ names.length > place.length then
    match names.drop place.length with
    | [name] => some name
    | _ => none
  else none

theorem childName?_eq_some {place names : List RawText} {name : RawText} :
    childName? place names = some name ↔ names = place ++ [name] := by
  constructor
  · intro hsome
    unfold childName? at hsome
    split at hsome
    · next hbelow =>
      obtain ⟨rest, rfl⟩ := List.isPrefixOf_iff_prefix.1 hbelow.1
      rw [List.drop_left] at hsome
      split at hsome
      · cases hsome
        rfl
      · cases hsome
    · cases hsome
  · rintro rfl
    simp [childName?]

/-- What is in a directory is listed once. -/
theorem exists_list {f : Files} {p : Path} {place : List RawText}
    (h : f.find p = .ok (place, .directory)) :
    ∃ names, f.list p = .ok names ∧ names.Nodup ∧
      ∀ name, name ∈ names ↔ f.node? (place ++ [name]) ≠ none := by
  have hlist : f.list p = .ok (f.nodes.entries.filterMap fun e => childName? place e.1) := by
    rw [list, h]
    change Except.ok _ = _
    rw [below, List.filterMap_filterMap]
    refine congrArg (Except.ok ∘ (List.filterMap · f.nodes.entries)) (funext fun e => ?_)
    obtain ⟨names, node⟩ := e
    dsimp only
    unfold childName?
    split <;> rfl
  refine ⟨_, hlist, ?_, fun name => ?_⟩
  · refine List.Pairwise.filterMap _ ?_ f.nodes.ascending
    rintro a b hlt name hname other hother rfl
    rw [childName?_eq_some.1 hname, childName?_eq_some.1 hother] at hlt
    exact List.lt_irrefl _ hlt
  · have hne : place ++ [name] ≠ [] := by simp
    rw [List.mem_filterMap, node?, if_neg hne]
    constructor
    · rintro ⟨⟨names, node⟩, hmem, hname⟩
      obtain rfl := childName?_eq_some.1 hname
      rw [(Table.get?_eq_some_iff _).2 hmem]
      exact Option.some_ne_none node
    · intro hsome
      obtain ⟨node, hnode⟩ := Option.ne_none_iff_exists'.1 hsome
      exact ⟨_, (Table.get?_eq_some_iff _).1 hnode, childName?_eq_some.2 rfl⟩

/-- The tree without what is at a place. -/
def without (f : Files) (place : List RawText) : Files := { f with nodes := f.nodes.erase place }

theorem node?_without (f : Files) {place : List RawText} (h : place ≠ []) (other : List RawText) :
    (f.without place).node? other = if other = place then none else f.node? other := by
  unfold node? without
  by_cases hroot : other = []
  · simp [hroot, h.symm]
  · simp only [hroot, if_false, Table.get?_erase]

/-- Where a file was taken away directories stay. -/
theorem node?_without_of_directory {f : Files} {place : List RawText} {content : ByteArray}
    (h : f.node? place = some (.file content)) {other : List RawText}
    (hdir : f.node? other = some .directory) : (f.without place).node? other = some .directory := by
  have hroot : place ≠ [] := ne_nil_of_node?_ne (by rw [h]; exact nofun)
  rw [node?_without f hroot, if_neg, hdir]
  rintro rfl
  rw [h] at hdir
  cases hdir

theorem WellFormed.without {f : Files} (hf : f.WellFormed) {place : List RawText}
    {content : ByteArray} (h : f.node? place = some (.file content)) :
    (f.without place).WellFormed := by
  have hroot : place ≠ [] := ne_nil_of_node?_ne (by rw [h]; exact nofun)
  refine ⟨fun other hother => ?_, hf.here.mono fun _ => node?_without_of_directory h⟩
  rw [node?_without f hroot] at hother
  split at hother
  · exact absurd rfl hother
  · exact (hf.reached other hother).mono fun _ => node?_without_of_directory h

/-- A file in a directory that is found is removed. -/
theorem removeFile_join {f : Files} {p : Path} {place : List RawText}
    (h : f.find p = .ok (place, .directory)) {name : RawText} (hname : Path.IsName name)
    (hsize : name.bytes.length ≤ maxNameSize) {content : ByteArray}
    (hnode : f.node? (place ++ [name]) = some (.file content)) :
    f.removeFile (p.join name) = .ok (f.without (place ++ [name])) := by
  rw [removeFile, find_join h hname hsize, hnode]
  rfl

end Recast.Files
