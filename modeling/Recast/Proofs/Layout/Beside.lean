/-
  Proofs/Layout/Beside.lean --- trees that are the same below a directory but for some places.

  Two trees are `Beside` each other below a directory if it can be made in both, in the same place,
  and then what is below it is the same but for places of a kind; or if nothing can be put below it in
  either of them.  Writing a Go file does the same to both (`Layout.attempt_beside`), and what is
  written to a place of the kind in one of them makes no difference (`Beside.changeIn_left`).
-/
import Recast.Proofs.Layout.Exchange

set_option autoImplicit false

namespace Recast

namespace Files

variable {f g k : Files} {p root : Path} {place q : List RawText}

/-! ## Where directories are -/

namespace Leads

/-- A directory by its name is in a directory. -/
theorem of_join {name : RawText} (hname : Path.IsName name) (h : f.Leads (p.join name) q) :
    ∃ place, f.Leads p place ∧ q = place ++ [name] := by
  obtain ⟨place, hplace, -, hq⟩ :=
    leads_of_target_join hname (h.target (Path.components_join_ne_nil p hname))
  exact ⟨place, hplace, hq⟩

theorem requireDirectory (h : f.Leads p place) (hne : p.components ≠ []) :
    f.requireDirectory p = .ok () := by
  have hfind : f.find p = .ok (place, .directory) :=
    find_eq_ok.2 ⟨(target_eq_follow hne).trans h.follow, h.node, nofun⟩
  rw [Files.requireDirectory, hfind]
  rfl

end Leads

/-! ## Operations on files by name -/

theorem target_join_of_leads (h : f.Leads p place) {name : RawText} (hname : Path.IsName name)
    (hsize : name.bytes.length ≤ maxNameSize) : f.target (p.join name) = .ok (place ++ [name]) := by
  rw [h.target_join hname, if_neg (Nat.not_lt.2 hsize)]

/-- What is read depends on what is at the place alone. -/
theorem read_congr (h : f.target p = .ok q) (h' : g.target p = .ok q)
    (hnode : g.node? q = f.node? q) : g.read p = f.read p := by
  unfold read find
  rw [h, h']
  dsimp only [bind, Except.bind]
  rw [hnode]

theorem replace_of_target (h : f.target p = .ok q) (hname : namesDirectory p = false)
    (content : ByteArray) :
    f.replace p content =
      if f.node? q = some .directory then .error .isADirectory
      else .ok (f.put q (.file content)) := by
  rw [replace, h, hname]
  dsimp only [bind, Except.bind]
  rw [if_neg Bool.false_ne_true]
  cases f.node? q with
  | none => rfl
  | some node => cases node <;> rfl

/-! ## Trees side by side -/

/-- Trees that are the same below a directory, once it is made, but for the places with some names;
or nothing can be made in it in either of them. -/
inductive Beside (apart : List RawText → Prop) (root : Path) (f f' : Files) : Prop
  | made {g g' : Files} {place : List RawText} (left : f.Makes root g place)
      (right : f'.Makes root g' place)
      (same : ∀ names, ¬apart names → g'.node? (place ++ names) = g.node? (place ++ names))
  | blocked {g g' : Files} (left : f.Blocks root g) (right : f'.Blocks root g')

namespace Beside

variable {apart : List RawText → Prop} {f' : Files}

theorem refl (f : Files) : Beside apart root f f := by
  rcases makes_or_blocks f root with ⟨g, place, hmakes⟩ | ⟨g, hblocks⟩
  · exact .made hmakes hmakes fun _ _ => rfl
  · exact .blocked hblocks hblocks

theorem symm (h : Beside apart root f f') : Beside apart root f' f := by
  cases h with
  | made left right same => exact .made right left fun names hnames => (same names hnames).symm
  | blocked left right => exact .blocked right left

theorem trans (h : Beside apart root f f') (h' : Beside apart root f' k) :
    Beside apart root f k := by
  cases h with
  | blocked left right =>
    cases h' with
    | blocked left' right' => exact .blocked left right'
    | made left' right' same' => exact absurd left'.leads (right.now.unmade _ _ left'.made)
  | @made g g' place left right same =>
    cases h' with
    | blocked left' right' => exact absurd right.leads (left'.now.unmade _ _ right.made)
    | @made k g'' place' left' right' same' =>
      have hmade := left'.made
      rw [right.made] at hmade
      cases hmade
      cases right.leads.unique left'.leads
      exact .made left right' fun names hnames => (same' names hnames).trans (same names hnames)

theorem of_leads (h : f.Leads root place) (h' : f'.Leads root place)
    (hsame : ∀ names, ¬apart names → f'.node? (place ++ names) = f.node? (place ++ names)) :
    Beside apart root f f' :=
  .made (.of_leads h) (.of_leads h') hsame

/-- What is below a directory that is there in both. -/
theorem same (h : Beside apart root f f') (hleads : f.Leads root place) (hleads' : f'.Leads root q) :
    q = place ∧ ∀ names, ¬apart names → f'.node? (place ++ names) = f.node? (place ++ names) := by
  cases h with
  | made left right same =>
    obtain ⟨rfl, rfl⟩ := left.eq_of_leads hleads
    obtain ⟨rfl, rfl⟩ := right.eq_of_leads hleads'
    exact ⟨rfl, same⟩
  | blocked left right => exact absurd hleads (left.now.not_leads place)

/-- A file further below is written in both or in none. -/
theorem replace (h : Beside apart root f f') (hroot : f.Leads root place)
    (hroot' : f'.Leads root place) {directory : Path} {above : List RawText}
    (hdirectory : f.Leads directory (place ++ above))
    (hdirectory' : f'.Leads directory (place ++ above)) {name : RawText} (hname : Path.IsName name)
    (hsize : name.bytes.length ≤ maxNameSize) (hapart : ¬apart (above ++ [name]))
    (content : ByteArray) :
    (∃ e, f.replace (directory.join name) content = .error e ∧
        f'.replace (directory.join name) content = .error e) ∨
      ∃ g g', f.replace (directory.join name) content = .ok g ∧
        f'.replace (directory.join name) content = .ok g' ∧ Beside apart root g g' := by
  obtain ⟨-, hsame⟩ := h.same hroot hroot'
  have hreplace := replace_of_target (target_join_of_leads hdirectory hname hsize)
    (namesDirectory_join directory hname) content
  have hreplace' := replace_of_target (target_join_of_leads hdirectory' hname hsize)
    (namesDirectory_join directory hname) content
  have hnode := hsame _ hapart
  rw [List.append_assoc] at hreplace hreplace'
  rw [hnode] at hreplace'
  by_cases hthere : f.node? (place ++ (above ++ [name])) = some .directory
  · rw [if_pos hthere] at hreplace hreplace'
    exact .inl ⟨_, hreplace, hreplace'⟩
  · rw [if_neg hthere] at hreplace hreplace'
    refine .inr ⟨_, _, hreplace, hreplace', .of_leads (hroot.writes (writes_replace hreplace))
      (hroot'.writes (writes_replace hreplace')) fun names hnames => ?_⟩
    rw [node?_put _ (by simp), node?_put _ (by simp), hsame names hnames]

/-- A directory of the kind that is made in one of the trees, and a file of the kind that is put into
it, make no difference, also when the file cannot be put. -/
theorem changeIn_left {ε : Type} (h : Beside apart root f f') {directory name : RawText}
    (hdirectory : Path.IsName directory) (hname : Path.IsName name) (hapart : apart [directory])
    (hapart' : apart [directory, name]) (fault : FileError → ε) {change : Files → Except ε Files}
    (hchange : ∀ made k, change made = .ok k →
      ∃ content, made.replace ((root.join directory).join name) content = .ok k) :
    Beside apart root (f.changeIn (root.join directory) fault change).2 f' := by
  unfold changeIn
  cases h with
  | @blocked g g' left right =>
    obtain ⟨e, he⟩ := left.now.fails directory hdirectory
    rw [he]
    exact .blocked ⟨left.later, left.later⟩ right
  | @made made made' place left right same =>
    have hnothing : Beside apart root made f' := .made (.of_leads left.leads) right same
    rw [left.join directory hdirectory, makeDirectories_join left.leads hdirectory]
    by_cases hsize : directory.bytes.length > maxNameSize
    · rw [if_pos hsize]
      exact hnothing
    rw [if_neg hsize]
    by_cases hthere : (made.node? (place ++ [directory])).any (· ≠ .directory) = true
    · rw [if_pos hthere]
      exact hnothing
    rw [if_neg hthere]
    have hroot : (made.ensure (place ++ [directory])).Leads root place :=
      left.leads.mono (here_ensure made _) fun _ => directory_ensure (by simp)
    have hensured : ∀ names, ¬apart names → made'.node? (place ++ names) =
        (made.ensure (place ++ [directory])).node? (place ++ names) := by
      intro names hnames
      rw [node?_ensure (by simp), if_neg, same names hnames]
      rintro ⟨heq, -⟩
      exact hnames (List.append_cancel_left heq ▸ hapart)
    dsimp only
    split
    · next k hk =>
      obtain ⟨content, hreplace⟩ := hchange _ _ hk
      obtain ⟨q, htarget, -, hfile, rfl⟩ := replace_eq_ok.1 hreplace
      obtain ⟨above, habove, -, -, -, rfl⟩ := leads_of_target_join_join hdirectory hname htarget
      cases hroot.unique habove
      refine .made (.of_leads (hroot.writes (writes_replace hreplace))) right fun names hnames => ?_
      rw [node?_put _ (by simp), if_neg, hensured names hnames]
      exact fun heq => hnames (List.append_cancel_left heq ▸ hapart')
    · exact .made (.of_leads hroot) right hensured

end Beside

end Files

/-! ## Go files -/

namespace Layout

variable {apart : List RawText → Prop} {f f' : Files} {root : Path} {p : Placement}

/-- A Go file is written in both of two trees or in none. -/
theorem attempt_beside (h : f.Beside apart root f') (hp : Named p) (hmodule : ¬apart [p.module])
    (hfile : ¬apart [p.module, p.fileName]) (content : String) :
    (attempt f root p content).2.Beside apart root (attempt f' root p content).2 ∧
      (attempt f' root p content).1.isSome = (attempt f root p content).1.isSome := by
  cases h with
  | blocked left right =>
    obtain ⟨e, he⟩ := left.now.fails _ hp.module
    obtain ⟨e', he'⟩ := right.now.fails _ hp.module
    rw [attempt_of_error he, attempt_of_error he']
    exact ⟨.blocked ⟨left.later, left.later⟩ ⟨right.later, right.later⟩, rfl⟩
  | @made g g' place left right same =>
    have hmoduleFault : moduleFault? g' place p = moduleFault? g place p := by
      rw [moduleFault?, same _ hmodule, moduleFault?]
    have hfileFault : fileFault? g' place p = fileFault? g place p := by
      rw [fileFault?, same _ hfile, fileFault?]
    have hfault : fault? g' root place p = fault? g root place p := by
      rw [fault?, hmoduleFault, hfileFault, fault?]
    rw [attempt_congr (left.join _ hp.module), attempt_congr (right.join _ hp.module),
      attempt_of_leads left.leads hp, attempt_of_leads right.leads hp, hfault]
    refine ⟨.of_leads (leads_settled left.leads p content) (leads_settled right.leads p content)
      fun names hnames => ?_, rfl⟩
    unfold settled
    rw [hmoduleFault, hfileFault]
    cases moduleFault? g place p with
    | some e => exact same names hnames
    | none =>
      cases fileFault? g place p with
      | some e =>
        dsimp only
        rw [Files.node?_ensure (by simp), Files.node?_ensure (by simp), same names hnames,
          same _ hmodule]
      | none =>
        dsimp only
        rw [node?_written, node?_written, same names hnames]

end Layout

end Recast
