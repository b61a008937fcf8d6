/-
  Proofs/Files/Place.lean --- the places of paths, and trees in which places have paths.

  A tree is `WellFormed` when everything in it has a name that fits and is in a directory.  In such a
  tree the path of a place leads there (`target_pathOf`).
-/
import Recast.Proofs.Files.Tree
import Recast.Proofs.Path
import Recast.Proofs.Table

set_option autoImplicit false

namespace Recast.Files

/-! ## Places of paths -/

/-- The place that a path names, whether or not it can be followed. -/
def placeOf (f : Files) (p : Path) : List RawText :=
  walk (if p.isAbsolute then [] else f.here) p.components

theorem target_eq_ok {f : Files} {p : Path} {q : List RawText} (h : f.target p = .ok q) :
    q = f.placeOf p := by
  unfold target at h
  split at h
  · cases h
  · exact follow_eq_walk h

theorem walk_append (place : List RawText) (cs ds : List Path.Component) :
    walk place (cs ++ ds) = walk (walk place cs) ds := by
  induction cs generalizing place with
  | nil => rfl
  | cons c cs ih => cases c <;> exact ih _

theorem placeOf_join (f : Files) (p : Path) {name : RawText} (h : Path.IsName name) :
    f.placeOf (p.join name) = f.placeOf p ++ [name] := by
  rw [placeOf, Path.components_join p h, Path.isAbsolute_join p h, walk_append]
  rfl

/-- A path with a file name names a place of that name. -/
theorem exists_placeOf {f : Files} {p : Path} {name : RawText} (h : p.fileName? = some name) :
    ∃ above, f.placeOf p = above ++ [name] := by
  unfold Path.fileName? at h
  split at h
  · next last hlast =>
    cases h
    obtain ⟨cs, hcs⟩ := List.getLast?_eq_some_iff.1 hlast
    rw [placeOf, hcs, walk_append]
    exact ⟨_, rfl⟩
  · cases h

theorem follow_append (f : Files) (place : List RawText) (cs ds : List Path.Component)
    {q : List RawText} (h : f.follow place cs = .ok q) :
    f.follow place (cs ++ ds) = f.follow q ds := by
  induction cs generalizing place with
  | nil =>
    cases h
    rfl
  | cons c cs ih =>
    rw [List.cons_append]
    generalize hend : f.follow q ds = ending
    unfold follow at h ⊢
    split at h
    · cases h
    · cases h
    · cases c with
      | root => exact (ih _ h).trans hend
      | current => exact (ih _ h).trans hend
      | up => exact (ih _ h).trans hend
      | normal name =>
        dsimp only at h ⊢
        split at h
        · cases h
        · next hsize =>
          rw [if_neg hsize]
          exact (ih _ h).trans hend

/-- Where the beginning of a path cannot be followed the path cannot. -/
theorem follow_append_error (f : Files) (place : List RawText) (cs ds : List Path.Component)
    {e : FileError} (h : f.follow place cs = .error e) :
    f.follow place (cs ++ ds) = .error e := by
  induction cs generalizing place with
  | nil => cases h
  | cons c cs ih =>
    rw [List.cons_append]
    unfold follow at h ⊢
    split at h
    · exact h
    · exact h
    · cases c with
      | root => exact ih _ h
      | current => exact ih _ h
      | up => exact ih _ h
      | normal name =>
        dsimp only at h ⊢
        split at h
        · next hsize => rw [if_pos hsize, h]
        · next hsize => rw [if_neg hsize, ih _ h]

/-- A path that ends in a name does not end in a slash or a dot. -/
theorem namesDirectory_join (p : Path) {name : RawText} (h : Path.IsName name) :
    namesDirectory (p.join name) = false := by
  have hname := RawText.pieces_of_noSlash h.noSlash
  have hlast : (p.join name).raw.pieces.getLast? = some name := by
    by_cases hp : p.raw = ""
    · have hjoin : p.join name = ⟨name⟩ := by rw [Path.join, if_pos (.inr hp)]
      rw [hjoin, hname]
      rfl
    · rcases Path.raw_join h hp with ⟨before, -, hraw⟩ | hraw
      · rw [hraw, RawText.pieces_append_slash, hname, List.getLast?_concat]
      · rw [hraw, RawText.pieces_append_slash, hname, List.getLast?_concat]
  rw [namesDirectory, hlast, Option.any_some, beq_eq_false_iff_ne.2 h.notEmpty,
    beq_eq_false_iff_ne.2 h.notCurrent]
  rfl

/-- A name in a path is the last step on the way. -/
theorem target_join_eq_follow (f : Files) (p : Path) {name : RawText} (hname : Path.IsName name) :
    f.target (p.join name) =
      f.follow (if p.isAbsolute then [] else f.here) (p.components ++ [.normal name]) := by
  rw [target, if_neg (Path.raw_join_ne_empty p hname), Path.isAbsolute_join p hname,
    Path.components_join p hname]

/-- A name in a directory that is found leads to its place. -/
theorem target_join {f : Files} {p : Path} {place : List RawText}
    (h : f.find p = .ok (place, .directory)) {name : RawText} (hname : Path.IsName name)
    (hsize : name.bytes.length ≤ maxNameSize) : f.target (p.join name) = .ok (place ++ [name]) := by
  obtain ⟨htarget, hnode, -⟩ := find_eq_ok.1 h
  have hfollow : f.follow (if p.isAbsolute then [] else f.here) p.components = .ok place := by
    unfold target at htarget
    split at htarget
    · cases htarget
    · exact htarget
  rw [target_join_eq_follow f p hname, follow_append f _ _ _ hfollow, follow, hnode]
  exact if_neg (Nat.not_lt.2 hsize)

/-- A name in a directory that is found finds what is there. -/
theorem find_join {f : Files} {p : Path} {place : List RawText}
    (h : f.find p = .ok (place, .directory)) {name : RawText} (hname : Path.IsName name)
    (hsize : name.bytes.length ≤ maxNameSize) :
    f.find (p.join name) =
      match f.node? (place ++ [name]) with
      | none => .error .notFound
      | some node => .ok (place ++ [name], node) := by
  have htarget := target_join h hname hsize
  cases hnode : f.node? (place ++ [name]) with
  | none =>
    rw [find, htarget]
    simp [bind, Except.bind, hnode]
  | some node => exact find_eq_ok.2 ⟨htarget, hnode, fun _ => namesDirectory_join p hname⟩

/-! ## Well-formed trees -/

/-- A place whose names fit and that directories lead to. -/
structure Reached (f : Files) (place : List RawText) : Prop where
  named : ∀ name ∈ place, Path.IsName name ∧ name.bytes.length ≤ maxNameSize
  above : ∀ before name after, place = before ++ name :: after →
    f.node? before = some .directory

/-- A tree in which everything has a name that fits and is in a directory. -/
structure WellFormed (f : Files) : Prop where
  reached : ∀ place, f.node? place ≠ none → f.Reached place
  here : f.Reached f.here

theorem reached_iff {f : Files} {place : List RawText} : f.Reached place ↔
    (∀ name ∈ place, Path.IsName name ∧ name.bytes.length ≤ maxNameSize) ∧
      ∀ i < place.length, f.node? (place.take i) = some .directory := by
  refine ⟨fun h => ⟨h.named, fun i hi => ?_⟩, fun h => ⟨h.1, ?_⟩⟩
  · refine h.above (place.take i) place[i] (place.drop (i + 1)) ?_
    rw [List.getElem_cons_drop, List.take_append_drop]
  · rintro before name after rfl
    have habove := h.2 before.length (by simp)
    rwa [List.take_left] at habove

theorem wellFormed_iff {f : Files} :
    f.WellFormed ↔ (∀ e ∈ f.nodes.entries, f.Reached e.1) ∧ f.Reached f.here := by
  refine ⟨fun h => ⟨fun e he => ?_, h.here⟩, fun h => ⟨fun place hplace => ?_, h.2⟩⟩
  · refine h.reached e.1 ?_
    unfold node?
    split
    · exact Option.some_ne_none _
    · rw [(Table.get?_eq_some_iff _).2 he]
      exact Option.some_ne_none _
  · by_cases hroot : place = []
    · rw [hroot]
      exact ⟨fun _ hmem => absurd hmem List.not_mem_nil, fun _ _ _ heq => by simp at heq⟩
    · rw [node?, if_neg hroot] at hplace
      obtain ⟨node, hnode⟩ := Option.ne_none_iff_exists'.1 hplace
      exact h.1 _ ((Table.get?_eq_some_iff _).1 hnode)

instance (f : Files) (place : List RawText) : Decidable (f.Reached place) :=
  decidable_of_iff _ reached_iff.symm

instance (f : Files) : Decidable f.WellFormed := decidable_of_iff _ wellFormed_iff.symm

namespace Reached

variable {f : Files} {place : List RawText}

theorem root (f : Files) : f.Reached [] :=
  ⟨fun _ h => absurd h List.not_mem_nil, fun _ _ _ h => absurd h.symm (by simp)⟩

theorem of_append {names : List RawText} (h : f.Reached (place ++ names)) : f.Reached place := by
  refine ⟨fun name hname => h.named name (List.mem_append_left _ hname), ?_⟩
  rintro before name after rfl
  exact h.above before name (after ++ names) (by simp)

theorem up (h : f.Reached place) : f.Reached place.dropLast := by
  rcases List.eq_nil_or_concat place with rfl | ⟨before, name, rfl⟩
  · exact h
  · rw [List.concat_eq_append] at h ⊢
    rw [List.dropLast_concat]
    exact h.of_append

theorem down (h : f.Reached place) (hdir : f.node? place = some .directory) {name : RawText}
    (hname : Path.IsName name) (hsize : name.bytes.length ≤ maxNameSize) :
    f.Reached (place ++ [name]) := by
  constructor
  · intro n hn
    rcases List.mem_append.1 hn with hn | hn
    · exact h.named n hn
    · rw [List.mem_singleton.1 hn]
      exact ⟨hname, hsize⟩
  · intro before n after heq
    rcases List.eq_nil_or_concat after with rfl | ⟨init, last, rfl⟩
    · rw [(List.append_inj' heq rfl).1.symm]
      exact hdir
    · rw [List.concat_eq_append, ← List.cons_append, ← List.append_assoc] at heq
      exact h.above before n init (List.append_inj' heq rfl).1

theorem mono {g : Files} (h : f.Reached place)
    (hdirs : ∀ q, f.node? q = some .directory → g.node? q = some .directory) : g.Reached place :=
  ⟨h.named, fun before name after heq => hdirs _ (h.above before name after heq)⟩

end Reached

/-- A path leads to a place that directories lead to. -/
theorem reached_of_follow {f : Files} {place : List RawText} {cs : List Path.Component}
    {q : List RawText} (hplace : f.Reached place)
    (hnames : ∀ name, .normal name ∈ cs → Path.IsName name) (h : f.follow place cs = .ok q) :
    f.Reached q := by
  induction cs generalizing place with
  | nil =>
    cases h
    exact hplace
  | cons c cs ih =>
    have hrest (name : RawText) (hmem : .normal name ∈ cs) := hnames name (.tail _ hmem)
    unfold follow at h
    split at h
    · cases h
    · cases h
    · next hdir =>
      cases c with
      | root => exact ih (.root f) hrest h
      | current => exact ih hplace hrest h
      | up => exact ih hplace.up hrest h
      | normal name =>
        dsimp only at h
        split at h
        · cases h
        · next hsize =>
          exact ih (hplace.down hdir (hnames name (.head _)) (Nat.not_lt.1 hsize)) hrest h

namespace WellFormed

variable {f : Files}

theorem reached_target (hf : f.WellFormed) {p : Path} {q : List RawText}
    (h : f.target p = .ok q) : f.Reached q := by
  unfold target at h
  split at h
  · cases h
  · refine reached_of_follow ?_ (fun name => Path.isName_of_mem_components) h
    split
    · exact .root f
    · exact hf.here

/-- What is put where a path leads is in its place. -/
theorem put (hf : f.WellFormed) {q : List RawText} (hq : f.Reached q)
    (hnode : f.node? q ≠ some .directory) (node : Node) : (f.put q node).WellFormed := by
  have hroot : q ≠ [] := ne_nil_of_node?_ne hnode
  have hdirs (place : List RawText) (hdir : f.node? place = some .directory) :
      (f.put q node).node? place = some .directory := by
    rw [node?_put f hroot, if_neg]
    · exact hdir
    · rintro rfl
      exact hnode hdir
  refine ⟨fun place hplace => ?_, hf.here.mono hdirs⟩
  rw [node?_put f hroot] at hplace
  split at hplace
  · next heq =>
    rw [heq]
    exact hq.mono hdirs
  · exact (hf.reached place hplace).mono hdirs

end WellFormed

/-- A tree with nothing in it is well-formed. -/
theorem wellFormed_empty : WellFormed {} := by decide

/-- Names are followed through directories. -/
theorem follow_names {f : Files} {place names : List RawText} (h : f.Reached (place ++ names)) :
    f.follow place (names.map .normal) = .ok (place ++ names) := by
  induction names generalizing place with
  | nil => simp [follow]
  | cons name names ih =>
    have hplace := h.above place name names rfl
    have hfits := (h.named name (List.mem_append_right place (.head _))).2
    rw [List.map_cons, follow, hplace]
    dsimp only
    have hassoc : place ++ name :: names = place ++ [name] ++ names := by simp
    rw [if_neg (Nat.not_lt.2 hfits), hassoc]
    rw [hassoc] at h
    exact ih h

theorem isAbsolute_pathOf (place : List RawText) : (pathOf place).isAbsolute = true :=
  Path.isAbsolute_append (a := "/") (by decide) _

theorem components_pathOf {place : List RawText} (h : ∀ name ∈ place, Path.IsName name) :
    (pathOf place).components = .root :: place.map .normal := by
  have hinner : Path.innerComponents (RawText.joined place).pieces = place.map .normal := by
    cases place with
    | nil => rfl
    | cons name rest =>
      rw [RawText.pieces_joined (List.cons_ne_nil _ _) fun n hn => (h n hn).noSlash]
      exact Path.innerComponents_names h
  rw [Path.components_eq (p := pathOf place) (RawText.pieces_slash _), Path.leading,
    isAbsolute_pathOf, if_pos rfl, List.singleton_append, hinner]

/-- Places with names have paths of their own. -/
theorem pathOf_injective {place other : List RawText} (h : ∀ name ∈ place, Path.IsName name)
    (h' : ∀ name ∈ other, Path.IsName name) (heq : pathOf place = pathOf other) :
    place = other := by
  have hcomponents := components_pathOf h
  rw [heq, components_pathOf h'] at hcomponents
  have hinjective : Function.Injective Path.Component.normal := fun a b hab => by cases hab; rfl
  exact (List.map_inj_right hinjective).1 (List.cons.inj hcomponents).2 |>.symm

/-- The path of a place leads there. -/
theorem target_pathOf {f : Files} {place : List RawText} (h : f.Reached place) :
    f.target (pathOf place) = .ok place := by
  have hraw : (pathOf place).raw ≠ "" := RawText.append_ne_empty (by decide) _
  rw [target, if_neg hraw, if_pos (isAbsolute_pathOf place),
    components_pathOf fun name hname => (h.named name hname).1]
  rw [← List.nil_append place] at h
  exact follow_names h

end Recast.Files
