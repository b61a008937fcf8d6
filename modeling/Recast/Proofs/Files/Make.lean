/-
  Proofs/Files/Make.lean --- making directories, one by one.

  A directory is made after the one in front of it, if that is missing (`makeDirectories_eq`), and in
  one step where that is there (`makeDirectories_join`).  So making the one above it first makes no
  difference (`Makes`).  What was made before a failure stays, and trying again fails again and makes
  nothing more (`Blocks`); where the path does not climb it fails in the same way (`Blocks.steady`).
-/
import Recast.Proofs.Files.Writes

set_option autoImplicit false

namespace Recast

namespace Files

variable {f g : Files} {p : Path} {place : List RawText}

/-! ## Directories that are there -/

/-- A path that leads to a directory; the empty path leads to where relative paths start. -/
structure Leads (f : Files) (p : Path) (place : List RawText) : Prop where
  follow : f.follow (if p.isAbsolute then [] else f.here) p.components = .ok place
  node : f.node? place = some .directory

theorem leads_of_find (h : f.find p = .ok (place, .directory)) : f.Leads p place := by
  obtain ⟨htarget, hnode, -⟩ := find_eq_ok.1 h
  refine ⟨?_, hnode⟩
  unfold target at htarget
  split at htarget
  · cases htarget
  · exact htarget

theorem target_eq_follow (hne : p.components ≠ []) :
    f.target p = f.follow (if p.isAbsolute then [] else f.here) p.components := by
  rw [target, if_neg]
  exact fun htext => hne (Path.components_of_raw_eq_empty htext)

/-- Paths with the same components that begin in the same way lead to the same place. -/
theorem target_congr {q : Path} (hne : p.components ≠ []) (hcomponents : q.components = p.components)
    (habsolute : q.isAbsolute = p.isAbsolute) : f.target q = f.target p := by
  rw [target_eq_follow (hcomponents ▸ hne), target_eq_follow hne, hcomponents, habsolute]

namespace Leads

theorem mono (h : f.Leads p place) (hhere : g.here = f.here)
    (hdirs : ∀ q, f.node? q = some .directory → g.node? q = some .directory) : g.Leads p place :=
  ⟨hhere ▸ follow_mono hdirs h.follow, hdirs place h.node⟩

theorem writes (h : f.Leads p place) {W : List RawText → Prop} (hwrites : f.Writes W g) :
    g.Leads p place :=
  h.mono hwrites.here fun _ => hwrites.directory

/-- A path leads to one place. -/
theorem unique (h : f.Leads p place) {q : List RawText} (h' : f.Leads p q) : q = place := by
  have hfollow := h'.follow
  rw [h.follow] at hfollow
  exact (Except.ok.inj hfollow).symm

theorem placeOf (h : f.Leads p place) : f.placeOf p = place := (follow_eq_walk h.follow).symm

theorem target_join (h : f.Leads p place) {name : RawText} (hname : Path.IsName name) :
    f.target (p.join name) =
      if name.bytes.length > maxNameSize then .error .nameTooLong else .ok (place ++ [name]) := by
  rw [target_join_eq_follow f p hname, follow_append f _ _ _ h.follow, Files.follow, h.node]
  rfl

/-- A directory in one that is there, by its name. -/
theorem join (h : f.Leads p place) {name : RawText} (hname : Path.IsName name)
    (hsize : name.bytes.length ≤ maxNameSize)
    (hnode : f.node? (place ++ [name]) = some .directory) :
    f.Leads (p.join name) (place ++ [name]) := by
  have htarget := h.target_join hname
  rw [if_neg (Nat.not_lt.2 hsize)] at htarget
  refine ⟨?_, hnode⟩
  rw [← target_eq_follow (Path.components_join_ne_nil p hname)]
  exact htarget

theorem find_join (h : f.Leads p place) {name : RawText} (hname : Path.IsName name)
    (hsize : name.bytes.length ≤ maxNameSize)
    (hnode : f.node? (place ++ [name]) = some .directory) :
    f.find (p.join name) = .ok (place ++ [name], .directory) := by
  refine find_eq_ok.2 ⟨?_, hnode, nofun⟩
  rw [h.target_join hname, if_neg (Nat.not_lt.2 hsize)]

end Leads

/-! ## Making a directory -/

/-- The tree with a directory at a place, unless something is there. -/
def ensure (f : Files) (place : List RawText) : Files :=
  if f.node? place = none then f.put place .directory else f

theorem node?_ensure (hne : place ≠ []) (q : List RawText) :
    (f.ensure place).node? q =
      if q = place ∧ f.node? place = none then some .directory else f.node? q := by
  unfold ensure
  split
  · next hnone =>
    rw [node?_put f hne]
    simp [hnone]
  · next hsome => simp [hsome]

theorem here_ensure (f : Files) (place : List RawText) : (f.ensure place).here = f.here := by
  unfold ensure
  split <;> rfl

theorem directory_ensure (hne : place ≠ []) {q : List RawText}
    (h : f.node? q = some .directory) : (f.ensure place).node? q = some .directory := by
  rw [node?_ensure hne]
  split
  · rfl
  · exact h

/-! ### One step -/

theorem isDirectory_eq_true : f.isDirectory p = true ↔
    ∃ place, f.target p = .ok place ∧ f.node? place = some .directory := by
  unfold isDirectory
  constructor
  · intro h
    split at h
    · next place hfind =>
      obtain ⟨htarget, hnode, -⟩ := find_eq_ok.1 hfind
      exact ⟨place, htarget, hnode⟩
    · cases h
  · rintro ⟨place, htarget, hnode⟩
    rw [find_eq_ok.2 ⟨htarget, hnode, fun hne => absurd rfl hne⟩]

theorem isDirectory_of_target {e : FileError} (h : f.target p = .error e) :
    f.isDirectory p = false := by
  refine Bool.eq_false_iff.2 fun hdirectory => ?_
  obtain ⟨place, htarget, -⟩ := isDirectory_eq_true.1 hdirectory
  cases h.symm.trans htarget

theorem makeDirectory_of_error {e : FileError} (h : f.target p = .error e) :
    f.makeDirectory p = .error e := by
  rw [makeDirectory, h]
  rfl

theorem makeDirectory_of_target (h : f.target p = .ok place) :
    f.makeDirectory p =
      if f.node? place = none then .ok (f.put place .directory) else .error .exists := by
  rw [makeDirectory, h]
  dsimp only [bind, Except.bind, pure, Except.pure]
  cases f.node? place <;> rfl

/-- What is done for a directory depends on where its path leads alone. -/
theorem makeLast_congr {q : Path} (h : f.target q = f.target p) : f.makeLast q = f.makeLast p := by
  have hdirectory : f.isDirectory q = f.isDirectory p := by
    rw [Bool.eq_iff_iff, isDirectory_eq_true, isDirectory_eq_true, h]
  rw [makeLast, makeDirectory, h, hdirectory, ← makeDirectory, makeLast]

theorem makeLast_of_error {e : FileError} (h : f.target p = .error e) :
    f.makeLast p = (.error e, f) := by
  rw [makeLast, makeDirectory_of_error h, isDirectory_of_target h]
  rfl

theorem makeLast_of_target (h : f.target p = .ok place) :
    f.makeLast p =
      if (f.node? place).any (· ≠ .directory) then (.error .exists, f)
      else (.ok (), f.ensure place) := by
  rw [makeLast, makeDirectory_of_target h]
  cases hnode : f.node? place with
  | none => simp [ensure, hnode]
  | some node =>
    cases node with
    | directory =>
      have hdirectory : f.isDirectory p = true := isDirectory_eq_true.2 ⟨place, h, hnode⟩
      simp [ensure, hnode, hdirectory]
    | file content =>
      have hdirectory : f.isDirectory p = false := by
        refine Bool.eq_false_iff.2 fun hdirectory => ?_
        obtain ⟨q, htarget, hq⟩ := isDirectory_eq_true.1 hdirectory
        cases h.symm.trans htarget
        cases hnode.symm.trans hq
      simp [hdirectory]

/-! ### One directory after the other -/

theorem makeDirectories_of_nil (h : p.components = []) : f.makeDirectories p = (.ok (), f) := by
  rw [makeDirectories, h]
  rfl

/-- What is done depends on the components alone. -/
theorem makeDirectories_congr {q : Path} (h : q.components = p.components) :
    f.makeDirectories q = f.makeDirectories p := by
  rw [makeDirectories, h, makeDirectories]

/-- A directory is made in one step, unless what is in front of it is missing and made first. -/
theorem makeDirectories_eq (f : Files) (hne : p.components ≠ []) :
    f.makeDirectories p =
      match f.makeDirectory p with
      | .error .notFound =>
        match f.makeDirectories p.parent with
        | (.ok (), f) => f.makeLast p
        | failed => failed
      | _ => f.makeLast p := by
  obtain ⟨above, c, hcs⟩ := List.eq_nil_or_concat p.components |>.resolve_left hne
  rw [List.concat_eq_append] at hcs
  have hparent : p.parent.components = above := by
    rw [p.components_parent.1, hcs, List.dropLast_concat]
  have hwhole : Path.ofComponents (c :: above.reverse).reverse = Path.ofComponents p.components := by
    rw [List.reverse_cons, List.reverse_reverse, hcs]
  have htarget (g : Files) : g.target (Path.ofComponents p.components) = g.target p :=
    target_congr hne p.components_ofComponents.1 p.components_ofComponents.2
  have hmake : f.makeDirectory (Path.ofComponents p.components) = f.makeDirectory p := by
    rw [makeDirectory, htarget, ← makeDirectory]
  have hlast (g : Files) : g.makeLast (Path.ofComponents p.components) = g.makeLast p :=
    makeLast_congr (htarget g)
  rw [makeDirectories, hcs, List.reverse_append, List.reverse_singleton, List.singleton_append,
    makeAbove, makeDirectories, hparent]
  rw [hwhole, hmake]
  generalize f.makeDirectory p = made, f.makeAbove above.reverse = front
  obtain ⟨_ | ⟨⟩, g⟩ := front <;> split <;> simp only [hlast]

/-- A directory that is there, or whose path leads nowhere for another reason than that something in
front of it is missing, is not made. -/
theorem makeDirectories_of_ne (hne : p.components ≠ [])
    (h : f.makeDirectory p ≠ .error .notFound) : f.makeDirectories p = f.makeLast p := by
  rw [makeDirectories_eq f hne]
  split
  · next heq => exact absurd heq h
  · rfl

theorem makeDirectories_of_notFound (hne : p.components ≠ [])
    (h : f.makeDirectory p = .error .notFound) :
    f.makeDirectories p =
      match f.makeDirectories p.parent with
      | (.ok (), f) => f.makeLast p
      | failed => failed := by
  rw [makeDirectories_eq f hne, h]

theorem makeDirectories_of_target (h : f.target p = .ok place) (hne : p.components ≠ []) :
    f.makeDirectories p = f.makeLast p := by
  refine makeDirectories_of_ne hne fun heq => ?_
  rw [makeDirectory_of_target h] at heq
  split at heq <;> cases heq

theorem Leads.target (h : f.Leads p place) (hne : p.components ≠ []) : f.target p = .ok place :=
  (target_eq_follow hne).trans h.follow

/-- A tree in which a path leads to a directory has that directory. -/
theorem makeDirectories_of_leads (h : f.Leads p place) : f.makeDirectories p = (.ok (), f) := by
  by_cases hne : p.components = []
  · exact makeDirectories_of_nil hne
  · rw [makeDirectories_of_target (h.target hne) hne, makeLast_of_target (h.target hne), h.node]
    simp [ensure, h.node]

/-- A directory in one that is there is made in one step. -/
theorem makeDirectories_join (h : f.Leads p place) {name : RawText} (hname : Path.IsName name) :
    f.makeDirectories (p.join name) =
      if name.bytes.length > maxNameSize then (.error .nameTooLong, f)
      else if (f.node? (place ++ [name])).any (· ≠ .directory) then (.error .exists, f)
      else (.ok (), f.ensure (place ++ [name])) := by
  have hne := Path.components_join_ne_nil p hname
  have htarget := h.target_join hname
  by_cases hsize : name.bytes.length > maxNameSize
  · rw [if_pos hsize] at htarget ⊢
    have hmake := makeDirectory_of_error htarget
    rw [makeDirectories_of_ne hne (by rw [hmake]; exact nofun), makeLast_of_error htarget]
  · rw [if_neg hsize] at htarget ⊢
    rw [makeDirectories_of_target htarget hne, makeLast_of_target htarget]

/-- A directory that was made is there. -/
theorem Leads.of_makeDirectories (hne : p.components ≠ [])
    (h : f.makeDirectories p = (.ok (), g)) : ∃ place, g.Leads p place := by
  have hdirectory := isDirectory_of_makeAbove h (List.reverse_ne_nil_iff.2 hne)
  rw [List.reverse_reverse] at hdirectory
  obtain ⟨place, htarget, hnode⟩ := isDirectory_eq_true.1 hdirectory
  rw [target_congr hne p.components_ofComponents.1 p.components_ofComponents.2,
    target_eq_follow hne] at htarget
  exact ⟨place, htarget, hnode⟩

/-! ### Failures -/

theorem makeLast_eq_error {e : FileError} (h : f.makeLast p = (.error e, g)) :
    g = f ∧ f.makeDirectory p = .error e ∧ f.isDirectory p = false := by
  unfold makeLast at h
  split at h
  · cases h
  · next e' hmake =>
    split at h
    · cases h
    · next hdirectory =>
      cases h
      exact ⟨rfl, hmake, Bool.eq_false_iff.2 hdirectory⟩

/-- What is in front of something in a directory is a directory. -/
theorem leads_parent (hne : p.components.dropLast ≠ []) (h : f.target p = .ok place) :
    ∃ above, f.Leads p.parent above := by
  obtain ⟨habsolute, c, -, hcomponents⟩ := p.components_parent.2 hne
  have hwhole : p.components ≠ [] := by
    rw [hcomponents]
    exact List.append_ne_nil_of_right_ne_nil _ (List.cons_ne_nil _ _)
  rw [target_eq_follow hwhole, hcomponents, ← habsolute] at h
  cases hfollow : f.follow (if p.parent.isAbsolute then [] else f.here) p.parent.components with
  | error e =>
    rw [follow_append_error f _ _ _ hfollow] at h
    cases h
  | ok above =>
    rw [follow_append f _ _ _ hfollow] at h
    unfold Files.follow at h
    split at h
    · cases h
    · cases h
    · next hnode => exact ⟨above, hfollow, hnode⟩

/-- A directory that was made is made again without a change. -/
theorem makeDirectories_of_made (h : f.makeDirectories p = (.ok (), g)) :
    g.makeDirectories p = (.ok (), g) := by
  by_cases hne : p.components = []
  · exact makeDirectories_of_nil hne
  · obtain ⟨place, hplace⟩ := Leads.of_makeDirectories hne h
    exact makeDirectories_of_leads hplace

theorem not_leads_of_isDirectory (hne : p.components ≠ []) (h : f.isDirectory p = false)
    (place : List RawText) : ¬f.Leads p place := fun hleads => by
  rw [isDirectory_eq_true.2 ⟨place, hleads.target hne, hleads.node⟩] at h
  cases h

/-- With everything in front of it there, only the last directory decides. -/
theorem makeDirectories_of_makeLast {e : FileError} (hne : p.components ≠ [])
    (habove : f.makeDirectories p.parent = (.ok (), f)) (h : f.makeLast p = (.error e, f)) :
    f.makeDirectories p = (.error e, f) := by
  by_cases hmake : f.makeDirectory p = .error .notFound
  · rw [makeDirectories_of_notFound hne hmake, habove]
    exact h
  · rw [makeDirectories_of_ne hne hmake]
    exact h

/-- Below what is not there and cannot be made nothing is and nothing can. -/
theorem makeDirectories_of_parent {e : FileError} (hparent : p.components.dropLast ≠ [])
    (hagain : f.makeDirectories p.parent = (.error e, f))
    (habove : ∀ place, ¬f.Leads p.parent place) :
    (∃ e', f.makeDirectories p = (.error e', f)) ∧ f.isDirectory p = false := by
  have hne : p.components ≠ [] := fun hnil => hparent (by rw [hnil, List.dropLast_nil])
  obtain ⟨e', htarget⟩ : ∃ e', f.target p = .error e' := by
    cases htarget : f.target p with
    | error e' => exact ⟨e', rfl⟩
    | ok place =>
      obtain ⟨above, hleads⟩ := leads_parent hparent htarget
      exact absurd hleads (habove above)
  refine ⟨?_, isDirectory_of_target htarget⟩
  by_cases hmake : f.makeDirectory p = .error .notFound
  · rw [makeDirectories_of_notFound hne hmake, hagain]
    exact ⟨e, rfl⟩
  · rw [makeDirectories_of_ne hne hmake]
    exact ⟨e', makeLast_of_error htarget⟩

/-- A directory that could not be made is not there, and trying again fails again and makes nothing
more. -/
theorem makeDirectories_again {e : FileError} (h : f.makeDirectories p = (.error e, g)) :
    (∃ e', g.makeDirectories p = (.error e', g)) ∧ ∀ place, ¬g.Leads p place := by
  induction hn : p.components.length using Nat.strongRecOn generalizing p f g e with
  | ind n ih =>
    have hne : p.components ≠ [] := by
      intro hnil
      rw [makeDirectories_of_nil hnil] at h
      cases h
    by_cases hmake : f.makeDirectory p = .error .notFound
    · rw [makeDirectories_of_notFound hne hmake] at h
      split at h
      · -- What is in front of it was made, and the last step failed.
        next made habove =>
        obtain ⟨rfl, -, hdirectory⟩ := makeLast_eq_error h
        exact ⟨⟨e, makeDirectories_of_makeLast hne (makeDirectories_of_made habove) h⟩,
          not_leads_of_isDirectory hne hdirectory⟩
      · -- What is in front of it could not be made.
        have hlength : p.parent.components.length < n := by
          rw [p.components_parent.1, List.length_dropLast, ← hn]
          exact Nat.sub_lt (List.length_pos_iff.2 hne) Nat.one_pos
        obtain ⟨⟨e', hagain⟩, habove⟩ := ih _ hlength h rfl
        have hparent : p.components.dropLast ≠ [] := by
          rw [← p.components_parent.1]
          intro hnil
          rw [makeDirectories_of_nil hnil] at h
          cases h
        obtain ⟨hfails, hdirectory⟩ := makeDirectories_of_parent hparent hagain habove
        exact ⟨hfails, not_leads_of_isDirectory hne hdirectory⟩
    · rw [makeDirectories_of_ne hne hmake] at h
      obtain ⟨rfl, -, hdirectory⟩ := makeLast_eq_error h
      refine ⟨⟨e, ?_⟩, not_leads_of_isDirectory hne hdirectory⟩
      rw [makeDirectories_of_ne hne hmake, h]

/-- The first step that cannot be made decides, or the place at the end does. -/
theorem follow_stuck (start : List RawText) (cs : List Path.Component)
    (h : ∀ place, f.follow start cs = .ok place → f.node? place ≠ some .directory) :
    ∃ e, ∀ d, f.follow start (cs ++ [d]) = .error e := by
  induction cs generalizing start with
  | nil =>
    have hnode := h start rfl
    simp only [List.nil_append]
    unfold Files.follow
    cases hstart : f.node? start with
    | none => exact ⟨.notFound, fun _ => rfl⟩
    | some node =>
      cases node with
      | file content => exact ⟨.notADirectory, fun _ => rfl⟩
      | directory => exact absurd hstart hnode
  | cons c cs ih =>
    simp only [List.cons_append]
    unfold Files.follow
    cases hstart : f.node? start with
    | none => exact ⟨.notFound, fun _ => rfl⟩
    | some node =>
      cases node with
      | file content => exact ⟨.notADirectory, fun _ => rfl⟩
      | directory =>
        unfold Files.follow at h
        rw [hstart] at h
        cases c with
        | root => exact ih _ h
        | current => exact ih _ h
        | up => exact ih _ h
        | normal name =>
          dsimp only at h ⊢
          split
          · exact ⟨.nameTooLong, fun _ => rfl⟩
          · next hsize =>
            rw [if_neg hsize] at h
            exact ih _ h

/-- A name in a path that leads to no directory leads nowhere. -/
theorem target_join_of_not_leads (h : ∀ place, ¬f.Leads p place) :
    ∃ e, ∀ name, Path.IsName name → f.target (p.join name) = .error e := by
  obtain ⟨e, he⟩ := follow_stuck (f := f) (if p.isAbsolute then [] else f.here) p.components
    fun place hfollow hnode => h place ⟨hfollow, hnode⟩
  exact ⟨e, fun name hname => (target_join_eq_follow f p hname).trans (he _)⟩

/-- Where a name in a path leads to a place, the path leads to a directory. -/
theorem leads_of_target_join {name : RawText} (hname : Path.IsName name) {q : List RawText}
    (h : f.target (p.join name) = .ok q) :
    ∃ place, f.Leads p place ∧ name.bytes.length ≤ maxNameSize ∧ q = place ++ [name] := by
  by_cases hany : ∃ place, f.Leads p place
  · obtain ⟨place, hplace⟩ := hany
    rw [hplace.target_join hname] at h
    split at h
    · cases h
    · next hsize => exact ⟨place, hplace, Nat.not_lt.1 hsize, (Except.ok.inj h).symm⟩
  · obtain ⟨e, he⟩ := target_join_of_not_leads (not_exists.1 hany)
    rw [he name hname] at h
    cases h

/-- Where a file in a directory leads to a place, the directory is in the one that the path leads
to. -/
theorem leads_of_target_join_join {directory name : RawText} (hdirectory : Path.IsName directory)
    (hname : Path.IsName name) {q : List RawText}
    (h : f.target ((p.join directory).join name) = .ok q) :
    ∃ place, f.Leads p place ∧ f.Leads (p.join directory) (place ++ [directory]) ∧
      directory.bytes.length ≤ maxNameSize ∧ name.bytes.length ≤ maxNameSize ∧
      q = place ++ [directory, name] := by
  obtain ⟨inner, hinner, hlong, rfl⟩ := leads_of_target_join hname h
  obtain ⟨place, hplace, hsize, rfl⟩ := leads_of_target_join hdirectory
    (hinner.target (Path.components_join_ne_nil p hdirectory))
  exact ⟨place, hplace, hinner, hsize, hlong, List.append_assoc place [directory] [name]⟩

/-- A directory is not made where a name in it leads nowhere for another reason than that something is
missing. -/
theorem not_makeDirectories_of_target (hne : p.components ≠ []) (hleads : ∀ place, ¬f.Leads p place)
    {name : RawText} (hname : Path.IsName name) {e : FileError} (hmissing : e ≠ .notFound)
    (htarget : f.target (p.join name) = .error e) : (f.makeDirectories p).1 ≠ .ok () := by
  rw [target_join_eq_follow f p hname] at htarget
  cases hplace : f.target p with
  | error e' =>
    rw [target_eq_follow hne] at hplace
    cases htarget.symm.trans (follow_append_error f _ _ _ hplace)
    rw [← target_eq_follow hne] at hplace
    have hmake : f.makeDirectory p ≠ .error .notFound := by
      rw [makeDirectory_of_error hplace]
      exact fun heq => hmissing (Except.error.inj heq)
    rw [makeDirectories_of_ne hne hmake, makeLast_of_error hplace]
    intro heq
    cases heq
  | ok place =>
    rw [makeDirectories_of_target hplace hne, makeLast_of_target hplace]
    rw [target_eq_follow hne] at hplace
    cases hnode : f.node? place with
    | none =>
      rw [follow_append f _ _ _ hplace, Files.follow, hnode] at htarget
      exact absurd (Except.error.inj htarget).symm hmissing
    | some node =>
      intro heq
      cases node with
      | directory => exact hleads place ⟨hplace, hnode⟩
      | file content => cases heq

/-! ### Directories in a directory -/

/-- A directory is made with everything above it, after which directories in it are made as if it had
been there. -/
structure Makes (f : Files) (root : Path) (g : Files) (place : List RawText) : Prop where
  made : f.makeDirectories root = (.ok (), g)
  leads : g.Leads root place
  join : ∀ name, Path.IsName name →
    f.makeDirectories (root.join name) = g.makeDirectories (root.join name)

/-- No directory can be made in a directory; what is left are the directories above it that can be
made. -/
structure Stuck (f : Files) (root : Path) (g : Files) : Prop where
  unmade : ∀ k place, f.makeDirectories root = (.ok (), k) → ¬k.Leads root place
  fails : ∀ name, Path.IsName name → ∃ e, f.makeDirectories (root.join name) = (.error e, g)

/-- No directory can be made in a directory, neither now nor when it is tried again. -/
structure Blocks (f : Files) (root : Path) (g : Files) : Prop where
  now : f.Stuck root g
  later : g.Stuck root g

theorem Makes.of_leads (h : f.Leads p place) : f.Makes p f place :=
  ⟨makeDirectories_of_leads h, h, fun _ _ => rfl⟩

/-- A directory that is there is not made. -/
theorem Makes.eq_of_leads (h : f.Makes p g place) {q : List RawText} (hleads : f.Leads p q) :
    g = f ∧ q = place := by
  have hmade := h.made
  rw [makeDirectories_of_leads hleads] at hmade
  cases hmade
  exact ⟨rfl, h.leads.unique hleads⟩

/-- What is in front of a name in a path is the path. -/
theorem makeDirectories_parent_join (f : Files) (p : Path) {name : RawText}
    (hname : Path.IsName name) : f.makeDirectories (p.join name).parent = f.makeDirectories p := by
  refine makeDirectories_congr ?_
  rw [(p.join name).components_parent.1, Path.components_join p hname, List.dropLast_concat]

/-- A directory in one that leads nowhere is made after that one, if that one is missing. -/
theorem makeDirectories_join_of_error {name : RawText} (hname : Path.IsName name) {e : FileError}
    (htarget : f.target (p.join name) = .error e) :
    f.makeDirectories (p.join name) =
      if e = .notFound then
        match f.makeDirectories p with
        | (.ok (), f) => f.makeLast (p.join name)
        | failed => failed
      else (.error e, f) := by
  have hne := Path.components_join_ne_nil p hname
  have hmake := makeDirectory_of_error htarget
  split
  · next heq =>
    rw [makeDirectories_of_notFound hne (by rw [hmake, heq]), makeDirectories_parent_join f p hname]
  · next heq =>
    rw [makeDirectories_of_ne hne, makeLast_of_error htarget]
    rw [hmake]
    exact fun hsame => heq (Except.error.inj hsame)

/-- A directory that cannot be made blocks the directories in it. -/
theorem blocks_of_error {e : FileError} (h : f.makeDirectories p = (.error e, g))
    (hmissing : ∀ name, Path.IsName name → f.target (p.join name) = .error .notFound) :
    f.Blocks p g := by
  obtain ⟨⟨e', hagain⟩, hleads⟩ := makeDirectories_again h
  obtain ⟨e'', htarget⟩ := target_join_of_not_leads hleads
  have hunmade {k : Files} {e : FileError} (hmake : k.makeDirectories p = (.error e, g)) :
      ∀ k' place, k.makeDirectories p = (.ok (), k') → ¬k'.Leads p place := by
    intro k' place hmade
    cases hmake.symm.trans hmade
  refine ⟨⟨hunmade h, fun name hname => ⟨e, ?_⟩⟩, ⟨hunmade hagain, fun name hname => ?_⟩⟩
  · rw [makeDirectories_join_of_error hname (hmissing name hname), if_pos rfl, h]
  · rw [makeDirectories_join_of_error hname (htarget name hname), hagain]
    split
    · exact ⟨e', rfl⟩
    · exact ⟨e'', rfl⟩

/-- The empty path leads to where relative paths start; if that is missing, nothing is made there. -/
theorem stuck_of_nil (hnil : p.components = []) (hleads : ∀ place, ¬f.Leads p place) :
    f.Stuck p f := by
  obtain ⟨e, htarget⟩ := target_join_of_not_leads hleads
  refine ⟨fun k place hmade => ?_, fun name hname => ⟨e, ?_⟩⟩
  · rw [makeDirectories_of_nil hnil] at hmade
    cases hmade
    exact hleads place
  · rw [makeDirectories_join_of_error hname (htarget name hname), makeDirectories_of_nil hnil]
    split
    · exact makeLast_of_error (htarget name hname)
    · rfl

/-- Nothing is made in what leads nowhere, unless something is missing on the way. -/
theorem stuck_of_target {e : FileError} (hmissing : e ≠ .notFound) (hne : p.components ≠ [])
    (hleads : ∀ place, ¬f.Leads p place)
    (htarget : ∀ name, Path.IsName name → f.target (p.join name) = .error e) : f.Stuck p f := by
  refine ⟨fun k place hmade => ?_, fun name hname => ⟨e, ?_⟩⟩
  · have hname : Path.IsName (RawText.ofString "a") := by decide
    exact absurd (congrArg Prod.fst hmade)
      (not_makeDirectories_of_target hne hleads hname hmissing (htarget _ hname))
  · rw [makeDirectories_join_of_error hname (htarget name hname), if_neg hmissing]

/-- What is made where something was missing is made once. -/
theorem makes_of_makeDirectories (hne : p.components ≠ []) (h : f.makeDirectories p = (.ok (), g))
    (hmissing : ∀ name, Path.IsName name → f.target (p.join name) = .error .notFound) :
    ∃ place, f.Makes p g place := by
  obtain ⟨place, hplace⟩ := Leads.of_makeDirectories hne h
  refine ⟨place, h, hplace, fun name hname => ?_⟩
  rw [makeDirectories_join_of_error hname (hmissing name hname), if_pos rfl, h, makeDirectories_of_ne]
  · exact Path.components_join_ne_nil p hname
  · rw [makeDirectory, hplace.target_join hname]
    intro heq
    split at heq
    · cases heq
    · dsimp only [bind, Except.bind] at heq
      split at heq <;> cases heq

/-- A directory can be made with everything above it, and then directories in it are made as if it
had been there; or nothing can be made in it. -/
theorem makes_or_blocks (f : Files) (p : Path) :
    (∃ g place, f.Makes p g place) ∨ ∃ g, f.Blocks p g := by
  by_cases hleads : ∃ place, f.Leads p place
  · obtain ⟨place, hplace⟩ := hleads
    exact .inl ⟨f, place, .of_leads hplace⟩
  · have hnowhere := not_exists.1 hleads
    by_cases hnil : p.components = []
    · exact .inr ⟨f, stuck_of_nil hnil hnowhere, stuck_of_nil hnil hnowhere⟩
    · obtain ⟨e, htarget⟩ := target_join_of_not_leads hnowhere
      by_cases hmissing : e = .notFound
      · subst hmissing
        cases hmade : f.makeDirectories p with
        | mk result g =>
          cases result with
          | error e => exact .inr ⟨g, blocks_of_error hmade htarget⟩
          | ok made => exact .inl ⟨g, makes_of_makeDirectories hnil hmade htarget⟩
      · have hstuck := stuck_of_target hmissing hnil hnowhere htarget
        exact .inr ⟨f, hstuck, hstuck⟩

namespace Stuck

theorem not_leads (h : f.Stuck p g) (place : List RawText) : ¬f.Leads p place :=
  fun hleads => h.unmade f place (makeDirectories_of_leads hleads) hleads

end Stuck

/-! ### Paths that do not climb -/

/-- A path that does not climb leads to the place that it names, if directories lead there. -/
theorem target_of_reached {cs : List Path.Component} {name : RawText}
    (hcomponents : p.components = cs ++ [.normal name]) (hup : .up ∉ p.components)
    (h : f.Reached (f.placeOf p)) : f.target p = .ok (f.placeOf p) := by
  obtain ⟨lead, inner, hshaped⟩ := p.exists_shaped
  obtain ⟨names, rfl⟩ : ∃ names : List RawText, inner = names.map .normal := by
    have hnormal : ∀ c ∈ inner, ∃ name, c = .normal name := by
      intro c hc
      cases hshaped.inner c hc with
      | up => exact absurd (hshaped.eq ▸ List.mem_append_right _ hc) hup
      | normal => exact ⟨_, rfl⟩
    clear hshaped
    induction inner with
    | nil => exact ⟨[], rfl⟩
    | cons c inner ih =>
      obtain ⟨name, rfl⟩ := hnormal c (.head _)
      obtain ⟨names, rfl⟩ := ih fun d hd => hnormal d (.tail _ hd)
      exact ⟨name :: names, rfl⟩
  have hwalk (place : List RawText) : walk place (names.map .normal) = place ++ names := by
    clear hshaped
    induction names generalizing place with
    | nil => rw [List.map_nil, walk, List.append_nil]
    | cons name names ih => rw [List.map_cons, walk, ih, List.append_assoc, List.singleton_append]
  have hne : p.components ≠ [] := by
    rw [hcomponents]
    exact List.append_ne_nil_of_right_ne_nil _ (List.cons_ne_nil _ _)
  rw [target_eq_follow hne]
  unfold placeOf at h ⊢
  rw [hshaped.eq] at h ⊢
  rcases hshaped.lead with ⟨rfl, habsolute⟩ | ⟨rfl, habsolute⟩ | ⟨rfl, habsolute⟩
  · rw [habsolute, if_neg Bool.false_ne_true, List.nil_append, hwalk] at h ⊢
    exact follow_names h
  · rw [habsolute, if_pos rfl, List.singleton_append, walk, hwalk] at h ⊢
    exact follow_names h
  · rw [habsolute, if_neg Bool.false_ne_true, List.singleton_append, walk, hwalk] at h ⊢
    -- The path has a name behind the dot, so that there is a directory to start from.
    cases names with
    | nil =>
      rw [hshaped.eq] at hcomponents
      rcases List.eq_nil_or_concat cs with rfl | ⟨init, c, rfl⟩
      · cases hcomponents
      · exact absurd (congrArg List.length hcomponents) (by simp)
    | cons name names =>
      rw [Files.follow, h.above f.here name names rfl]
      exact follow_names h

/-- Such a path leads to a directory if one of the names in it is reached. -/
theorem leads_of_reached_join (hup : .up ∉ p.components) {name : RawText} (hname : Path.IsName name)
    (h : f.Reached (f.placeOf p ++ [name])) : f.Leads p (f.placeOf p) := by
  have hcomponents := Path.components_join p hname
  have hjoin : .up ∉ (p.join name).components := by
    rw [hcomponents]
    simpa using hup
  rw [← placeOf_join f p hname] at h
  have htarget := target_of_reached hcomponents hjoin h
  rw [placeOf_join f p hname] at htarget
  obtain ⟨place, hleads, -, hplace⟩ := leads_of_target_join hname htarget
  rw [List.append_cancel_right hplace]
  exact hleads

/-- Where the directory above was missing and is made, nothing was in the way of a directory but the
length of its name. -/
theorem nameTooLong_of_makeLast (hf : f.WellFormed) (hup : .up ∉ p.components)
    (hparent : p.components.dropLast ≠ []) (hmissing : f.makeDirectory p = .error .notFound)
    {made : Files} (habove : f.makeDirectories p.parent = (.ok (), made)) {e : FileError}
    (h : made.makeLast p = (.error e, g)) : e = .nameTooLong ∧ g.target p = .error .nameTooLong := by
  obtain ⟨habsolute, c, hinner, hcomponents⟩ := p.components_parent.2 hparent
  obtain ⟨rfl, hlast, hdirectory⟩ := makeLast_eq_error h
  obtain ⟨place, hplace⟩ := Leads.of_makeDirectories (p.components_parent.1 ▸ hparent) habove
  cases hinner with
  | up => exact absurd (hcomponents ▸ List.mem_append_right _ (.head _)) hup
  | @normal name hname =>
    have htarget : g.target p = g.target (p.parent.join name) := by
      refine target_congr (Path.components_join_ne_nil _ hname) ?_ ?_
      · rw [hcomponents, Path.components_join _ hname]
      · rw [Path.isAbsolute_join _ hname, habsolute]
    rw [hplace.target_join hname] at htarget
    split at htarget
    · rw [makeDirectory_of_error htarget] at hlast
      exact ⟨(Except.error.inj hlast).symm, htarget⟩
    · exfalso
      rw [makeDirectory_of_target htarget] at hlast
      cases hnode : g.node? (place ++ [name]) with
      | none =>
        rw [if_pos hnode] at hlast
        cases hlast
      | some node =>
        cases node with
        | directory =>
          rw [isDirectory_eq_true.2 ⟨_, htarget, hnode⟩] at hdirectory
          cases hdirectory
        | file content =>
          -- A file in the way was there before.
          have hwrites : Writes (fun _ => False) f g := by
            have hwrites := writes_makeDirectories (W := fun _ => False) f p.parent
            rwa [habove] at hwrites
          have hbefore := hwrites.file_before not_false hnode
          have hplaceOf : f.placeOf p = place ++ [name] := by
            rw [← hwrites.placeOf, ← target_eq_ok htarget]
          have hreached := hf.reached _ (by rw [hbefore]; exact Option.some_ne_none _)
          rw [← hplaceOf] at hreached
          rw [makeDirectory_of_target (target_of_reached hcomponents hup hreached), hplaceOf,
            hbefore] at hmissing
          cases hmissing

/-- A directory whose path does not climb is not made because its name, or one in front of it, is too
long, unless nothing is made at all. -/
theorem makeDirectories_eq_error (hf : f.WellFormed) (hup : .up ∉ p.components) {e : FileError}
    (h : f.makeDirectories p = (.error e, g)) :
    g = f ∨ e = .nameTooLong ∧ g.target p = .error .nameTooLong := by
  induction hn : p.components.length using Nat.strongRecOn generalizing p g e with
  | ind n ih =>
    have hne : p.components ≠ [] := by
      intro hnil
      rw [makeDirectories_of_nil hnil] at h
      cases h
    by_cases hmissing : f.makeDirectory p = .error .notFound
    · rw [makeDirectories_of_notFound hne hmissing] at h
      by_cases hparent : p.components.dropLast = []
      · rw [makeDirectories_of_nil (p.components_parent.1.trans hparent)] at h
        exact .inl (makeLast_eq_error h).1
      · split at h
        · next made habove => exact .inr (nameTooLong_of_makeLast hf hup hparent hmissing habove h)
        · obtain ⟨habsolute, c, -, hcomponents⟩ := p.components_parent.2 hparent
          have hupParent : .up ∉ p.parent.components := fun hmem =>
            hup (hcomponents ▸ List.mem_append_left _ hmem)
          have hlength : p.parent.components.length < n := by
            rw [p.components_parent.1, List.length_dropLast, ← hn]
            exact Nat.sub_lt (List.length_pos_iff.2 hne) Nat.one_pos
          refine (ih _ hlength hupParent h rfl).imp_right fun hlong => ⟨hlong.1, ?_⟩
          have hfollow := hlong.2
          rw [target_eq_follow (p.components_parent.1 ▸ hparent)] at hfollow
          rw [target_eq_follow hne, hcomponents, ← habsolute]
          exact follow_append_error g _ _ _ hfollow
    · rw [makeDirectories_of_ne hne hmissing] at h
      exact .inl (makeLast_eq_error h).1

/-- Where a path does not climb, nothing can be made in it for the same reason as before. -/
theorem Blocks.steady (hf : f.WellFormed) (hup : .up ∉ p.components) (h : f.Blocks p g)
    {name : RawText} (hname : Path.IsName name) :
    g.makeDirectories (p.join name) = f.makeDirectories (p.join name) := by
  obtain ⟨e, he⟩ := h.now.fails name hname
  have hjoin : .up ∉ (p.join name).components := by
    rw [Path.components_join p hname]
    simpa using hup
  rcases makeDirectories_eq_error hf hjoin he with rfl | ⟨rfl, htarget⟩
  · rfl
  · rw [he, makeDirectories_join_of_error hname htarget, if_neg nofun]

end Files

end Recast
