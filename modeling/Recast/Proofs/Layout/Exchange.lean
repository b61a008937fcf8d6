/-
  Proofs/Layout/Exchange.lean --- Go files are written in any order.

  Below a directory that is there, what writing a Go file does and whether it fails is decided by
  what is at its own place and at that of its module (`write_of_leads`).  So Go files of different
  places can be written in either order (`attempt_comm`), also when one of them fails and leaves the
  directory of its module, or when it is the first of them that makes the output directory.
-/
import Recast.Proofs.Files.Make
import Recast.Proofs.Layout.Output

set_option autoImplicit false

namespace Recast

namespace Files

/-! ## Trees with the same nodes -/

theorem put_comm {place other : List RawText} (h : place ≠ other) (a b : Node) (f : Files) :
    (f.put place a).put other b = (f.put other b).put place a := by
  unfold put
  dsimp only
  rw [Table.insert_comm h]

/-- Putting what is there already changes nothing. -/
theorem put_of_node {f : Files} {place : List RawText} {node : Node} (hne : place ≠ [])
    (h : f.node? place = some node) : f.put place node = f := by
  have hget : f.nodes.get? place = some node := by
    rw [node?, if_neg hne] at h
    exact h
  have hsame : f.nodes.insert place node = f.nodes := by
    refine Table.ext_get? fun key => ?_
    rw [Table.get?_insert]
    split
    · next heq => rw [heq, hget]
    · rfl
  rw [put, hsame]

/-- Directories and files that are put at other places can be exchanged. -/
theorem ensure_put {place other : List RawText} (hne : other ≠ []) (h : place ≠ other) (node : Node)
    (f : Files) : (f.put other node).ensure place = (f.ensure place).put other node := by
  unfold ensure
  rw [node?_put f hne, if_neg h]
  split
  · exact put_comm (Ne.symm h) node .directory f
  · rfl

theorem ensure_comm {place other : List RawText} (hplace : place ≠ []) (hother : other ≠ [])
    (f : Files) : (f.ensure place).ensure other = (f.ensure other).ensure place := by
  by_cases h : place = other
  · rw [h]
  · have hstays {q r : List RawText} (hne : r ≠ []) (hqr : q ≠ r) :
        (f.ensure r).node? q = f.node? q := by
      rw [node?_ensure hne, if_neg fun hboth => hqr hboth.1]
    unfold ensure
    have hfirst := hstays hplace (Ne.symm h)
    have hsecond := hstays hother h
    unfold ensure at hfirst hsecond
    rw [hfirst, hsecond]
    split
    · split
      · exact put_comm h .directory .directory f
      · rfl
    · split
      · rfl
      · rfl

end Files

namespace Layout

variable {f : Files} {root : Path} {place : List RawText} {p q : Placement} {content : String}

/-! ## Writing below a directory that is there -/

/-- Why the directory of a module is not there or made below a directory that is there, if it is
not. -/
def moduleFault? (f : Files) (place : List RawText) (p : Placement) : Option FileError :=
  if (p.module : RawText).bytes.length > Files.maxNameSize then some .nameTooLong
  else if (f.node? (place ++ [(p.module : RawText)])).any (· ≠ .directory) then some .exists
  else none

/-- Why a Go file cannot be put into the directory of its module, if it cannot. -/
def fileFault? (f : Files) (place : List RawText) (p : Placement) : Option FileError :=
  if (p.fileName : RawText).bytes.length > Files.maxNameSize then some .nameTooLong
  else if f.node? (place ++ [(p.module : RawText), p.fileName]) = some .directory then
    some .isADirectory
  else none

/-- Why a Go file cannot be written below a directory that is there, if it cannot. -/
def fault? (f : Files) (root : Path) (place : List RawText) (p : Placement) : Option WriteError :=
  match moduleFault? f place p with
  | some e => some ⟨root.join p.module, e⟩
  | none => (fileFault? f place p).map (WriteError.mk (targetPath root p))

/-- The tree with a Go file below a directory. -/
def written (f : Files) (place : List RawText) (p : Placement) (content : String) : Files :=
  (f.ensure (place ++ [(p.module : RawText)])).put (place ++ [(p.module : RawText), p.fileName])
    (.file content.toUTF8)

/-- What writing a Go file below a directory leaves: a file that cannot be put into the directory of
its module leaves that directory. -/
def settled (f : Files) (place : List RawText) (p : Placement) (content : String) : Files :=
  match moduleFault? f place p, fileFault? f place p with
  | some _, _ => f
  | none, some _ => f.ensure (place ++ [(p.module : RawText)])
  | none, none => written f place p content

theorem node?_written (f : Files) (place : List RawText) (p : Placement) (content : String)
    (q : List RawText) : (written f place p content).node? q =
      if q = place ++ [(p.module : RawText), p.fileName] then some (.file content.toUTF8)
      else if q = place ++ [(p.module : RawText)] ∧ f.node? q = none then some .directory
      else f.node? q := by
  rw [written, Files.node?_put _ (by simp), Files.node?_ensure (by simp)]
  by_cases h : q = place ++ [(p.module : RawText)]
  · rw [h]
  · simp [h]

/-- The directory of a module, once it is there. -/
theorem leads_ensure (h : f.Leads root place) (hmodule : Path.IsName p.module)
    (hfault : moduleFault? f place p = none) :
    (f.ensure (place ++ [(p.module : RawText)])).find (root.join p.module) =
        .ok (place ++ [(p.module : RawText)], .directory) ∧
      (f.ensure (place ++ [(p.module : RawText)])).Leads (root.join p.module)
        (place ++ [(p.module : RawText)]) := by
  have hne : place ++ [(p.module : RawText)] ≠ [] := by simp
  unfold moduleFault? at hfault
  split at hfault
  · cases hfault
  · next hsize =>
    split at hfault
    · cases hfault
    · next hblocked =>
      have hnode : (f.ensure (place ++ [(p.module : RawText)])).node?
          (place ++ [(p.module : RawText)]) = some .directory := by
        rw [Files.node?_ensure hne]
        cases hthere : f.node? (place ++ [(p.module : RawText)]) with
        | none => simp
        | some node =>
          rw [hthere] at hblocked
          simpa using hblocked
      have hleads := h.mono (Files.here_ensure f _) fun _ => Files.directory_ensure hne
      exact ⟨hleads.find_join hmodule (Nat.not_lt.1 hsize) hnode,
        hleads.join hmodule (Nat.not_lt.1 hsize) hnode⟩

/-- What putting a Go file into the directory of its module does. -/
theorem replace_of_leads (hleads : (f.ensure (place ++ [(p.module : RawText)])).Leads
      (root.join p.module) (place ++ [(p.module : RawText)])) (hfile : Path.IsName p.fileName) :
    (f.ensure (place ++ [(p.module : RawText)])).replace (targetPath root p) content.toUTF8 =
      match fileFault? f place p with
      | some e => .error e
      | none => .ok (written f place p content) := by
  have htarget := hleads.target_join hfile
  rw [List.append_assoc, List.singleton_append] at htarget
  have hother : (f.ensure (place ++ [(p.module : RawText)])).node?
      (place ++ [(p.module : RawText), p.fileName]) =
        f.node? (place ++ [(p.module : RawText), p.fileName]) := by
    rw [Files.node?_ensure (by simp), if_neg (by simp)]
  rw [Files.replace, targetPath, htarget, Files.namesDirectory_join _ hfile, fileFault?]
  split
  · rfl
  · dsimp only [bind, Except.bind]
    rw [if_neg Bool.false_ne_true, hother]
    cases f.node? (place ++ [(p.module : RawText), p.fileName]) with
    | none => rfl
    | some node => cases node <;> rfl

/-- What writing a Go file below a directory that is there does. -/
theorem write_of_leads (h : f.Leads root place) (hmodule : Path.IsName p.module)
    (hfile : Path.IsName p.fileName) :
    write f root p content =
      ((match fault? f root place p with
        | some e => .error e
        | none => .ok ()), settled f place p content) := by
  have hmake : f.makeDirectories (root.join p.module) =
      match moduleFault? f place p with
      | some e => (.error e, f)
      | none => (.ok (), f.ensure (place ++ [(p.module : RawText)])) := by
    rw [Files.makeDirectories_join h hmodule, moduleFault?]
    split
    · rfl
    · split <;> rfl
  unfold write Files.changeIn fault? settled
  dsimp only
  rw [hmake]
  cases hfault : moduleFault? f place p with
  | some e => rfl
  | none =>
    obtain ⟨hfind, hleads⟩ := leads_ensure h hmodule hfault
    have hrequire : (f.ensure (place ++ [(p.module : RawText)])).requireDirectory
        (root.join p.module) = .ok () := by
      rw [Files.requireDirectory, hfind]
      rfl
    dsimp only
    rw [hrequire, replace_of_leads hleads hfile]
    cases fileFault? f place p <;> rfl

/-! ## What is left -/

/-- Below a directory a write of a Go file makes the directory of its module and puts the file, or not
so much. -/
theorem node?_settled (f : Files) (place : List RawText) (p : Placement) (content : String)
    (q : List RawText) :
    (settled f place p content).node? q = f.node? q ∨
      q = place ++ [(p.module : RawText)] ∧ f.node? q = none ∧
        (settled f place p content).node? q = some .directory ∨
      q = place ++ [(p.module : RawText), p.fileName] ∧ f.node? q ≠ some .directory ∧
        (settled f place p content).node? q = some (.file content.toUTF8) := by
  unfold settled
  cases moduleFault? f place p with
  | some e => exact .inl rfl
  | none =>
    cases hfault : fileFault? f place p with
    | some e =>
      rw [Files.node?_ensure (by simp)]
      split
      · next heq => exact .inr (.inl ⟨heq.1, heq.1 ▸ heq.2, rfl⟩)
      · exact .inl rfl
    | none =>
      rw [node?_written]
      split
      · next heq =>
        subst heq
        refine .inr (.inr ⟨rfl, fun hdirectory => ?_, rfl⟩)
        rw [fileFault?, if_pos hdirectory] at hfault
        split at hfault <;> cases hfault
      · split
        · next heq => exact .inr (.inl ⟨heq.1, heq.2, rfl⟩)
        · exact .inl rfl

theorem here_settled (f : Files) (place : List RawText) (p : Placement) (content : String) :
    (settled f place p content).here = f.here := by
  unfold settled
  split
  · rfl
  · exact Files.here_ensure f _
  · exact Files.here_ensure f _

/-- Directories stay when a Go file is written. -/
theorem directory_settled (f : Files) (place : List RawText) (p : Placement) (content : String)
    {q : List RawText} (hq : f.node? q = some .directory) :
    (settled f place p content).node? q = some .directory := by
  rcases node?_settled f place p content q with h | ⟨-, -, h⟩ | ⟨-, hnot, -⟩
  · exact h.trans hq
  · exact h
  · exact absurd hq hnot

theorem leads_settled (h : f.Leads root place) (p : Placement) (content : String) :
    (settled f place p content).Leads root place :=
  h.mono (here_settled f place p content) fun _ => directory_settled f place p content

/-- A Go file that holds what it should can as well be written. -/
theorem write_eq_writeIfChanged (hmodule : Path.IsName p.module) (hfile : Path.IsName p.fileName)
    (f : Files) (root : Path) (content : String) :
    write f root p content =
      ((writeIfChanged f root p content).1.map fun _ => (),
        (writeIfChanged f root p content).2) := by
  unfold writeIfChanged
  split
  · next hholds =>
    obtain ⟨q, htarget, hnode, -⟩ := Files.read_eq_ok.1 (holds_eq_true.1 hholds)
    obtain ⟨place, hleads, hinner, hsize, hlong, rfl⟩ :=
      Files.leads_of_target_join_join hmodule hfile htarget
    have hmoduleFault : moduleFault? f place p = none := by
      rw [moduleFault?, if_neg (Nat.not_lt.2 hsize), hinner.node, if_neg (by simp)]
    have hfileFault : fileFault? f place p = none := by
      rw [fileFault?, if_neg (Nat.not_lt.2 hlong), hnode, if_neg fun heq => by cases heq]
    have hsame : written f place p content = f := by
      rw [written, Files.ensure, if_neg (by rw [hinner.node]; exact Option.some_ne_none _)]
      exact Files.put_of_node (by simp) hnode
    rw [write_of_leads hleads hmodule hfile, fault?, settled, hmoduleFault, hfileFault, hsame]
    rfl
  · obtain ⟨result, g⟩ := write f root p content
    cases result <;> rfl

/-! ## Exchanging two writes -/

/-- Places of Go files whose names are names. -/
structure Named (p : Placement) : Prop where
  module : Path.IsName p.module
  fileName : Path.IsName p.fileName

theorem place_ne_of_ne (hne : p ≠ q) (place : List RawText) :
    place ++ [(p.module : RawText), p.fileName] ≠ place ++ [(q.module : RawText), q.fileName] := by
  intro heq
  have hnames := List.append_cancel_left heq
  simp only [List.cons.injEq, RawText.ofString_inj, and_true] at hnames
  obtain ⟨m, n⟩ := p
  obtain ⟨m', n'⟩ := q
  obtain ⟨hm, hn⟩ := hnames
  cases hm
  cases hn
  exact hne rfl

/-- What a write leaves of the directories: one is made for a module at most. -/
theorem moduleFault?_settled (f : Files) (place : List RawText) (p q : Placement)
    (content : String) :
    moduleFault? (settled f place p content) place q = moduleFault? f place q := by
  have hnode : ((settled f place p content).node? (place ++ [(q.module : RawText)])).any
      (· ≠ .directory) = (f.node? (place ++ [(q.module : RawText)])).any (· ≠ .directory) := by
    rcases node?_settled f place p content (place ++ [(q.module : RawText)]) with
      hsame | ⟨-, hnone, hmade⟩ | ⟨heq, -, -⟩
    · rw [hsame]
    · rw [hnone, hmade]
      rfl
    · simp at heq
  rw [moduleFault?, hnode, moduleFault?]

/-- The file of another place stays. -/
theorem node?_settled_of_ne (hne : p ≠ q) (f : Files) (place : List RawText) (content : String) :
    (settled f place p content).node? (place ++ [(q.module : RawText), q.fileName]) =
      f.node? (place ++ [(q.module : RawText), q.fileName]) := by
  rcases node?_settled f place p content (place ++ [(q.module : RawText), q.fileName]) with
    hsame | ⟨heq, -, -⟩ | ⟨heq, -, -⟩
  · exact hsame
  · simp at heq
  · exact absurd heq.symm (place_ne_of_ne hne place)

theorem fileFault?_settled (hne : p ≠ q) (f : Files) (place : List RawText) (content : String) :
    fileFault? (settled f place p content) place q = fileFault? f place q := by
  rw [fileFault?, node?_settled_of_ne hne, fileFault?]

theorem fault?_settled (hne : p ≠ q) (f : Files) (root : Path) (place : List RawText)
    (content : String) :
    fault? (settled f place p content) root place q = fault? f root place q := by
  rw [fault?, moduleFault?_settled, fileFault?_settled hne, fault?]

theorem settled_comm (hne : p ≠ q) (f : Files) (place : List RawText) (content other : String) :
    settled (settled f place p content) place q other =
      settled (settled f place q other) place p content := by
  have hplaces := place_ne_of_ne hne place
  have hput (g : Files) (node : Files.Node) (a b : Placement) :
      (g.put (place ++ [(a.module : RawText), a.fileName]) node).ensure
          (place ++ [(b.module : RawText)]) =
        (g.ensure (place ++ [(b.module : RawText)])).put
          (place ++ [(a.module : RawText), a.fileName]) node :=
    Files.ensure_put (by simp) (by simp) node g
  have hensure (g : Files) :
      (g.ensure (place ++ [(p.module : RawText)])).ensure (place ++ [(q.module : RawText)]) =
        (g.ensure (place ++ [(q.module : RawText)])).ensure (place ++ [(p.module : RawText)]) :=
    Files.ensure_comm (by simp) (by simp) g
  rw [settled.eq_def (settled f place p content), moduleFault?_settled, fileFault?_settled hne,
    settled.eq_def (settled f place q other), moduleFault?_settled,
    fileFault?_settled (Ne.symm hne), settled.eq_def f, settled.eq_def f]
  -- Each of the two writes makes its directory or not, and puts its file or not.
  cases moduleFault? f place p with
  | some _ => cases moduleFault? f place q <;> cases fileFault? f place q <;> rfl
  | none =>
    cases moduleFault? f place q with
    | some _ => cases fileFault? f place p <;> rfl
    | none =>
      cases fileFault? f place p with
      | some _ =>
        cases fileFault? f place q with
        | some _ => exact hensure f
        | none =>
          dsimp only
          rw [written, written, hput, hensure]
      | none =>
        cases fileFault? f place q with
        | some _ =>
          dsimp only
          rw [written, written, hput, hensure]
        | none =>
          dsimp only
          rw [written, written, written, written, hput, hput, Files.put_comm hplaces, hensure]

/-- A file that is put somewhere else and a Go file can be exchanged. -/
theorem settled_put {other : List RawText} (hother : other ≠ [])
    (hmodule : other ≠ place ++ [(p.module : RawText)])
    (hfile : other ≠ place ++ [(p.module : RawText), p.fileName]) (f : Files) (node : Files.Node)
    (root : Path) (content : String) :
    fault? (f.put other node) root place p = fault? f root place p ∧
      settled (f.put other node) place p content = (settled f place p content).put other node := by
  have hmoduleFault : moduleFault? (f.put other node) place p = moduleFault? f place p := by
    rw [moduleFault?, Files.node?_put f hother, if_neg hmodule.symm, moduleFault?]
  have hfileFault : fileFault? (f.put other node) place p = fileFault? f place p := by
    rw [fileFault?, Files.node?_put f hother, if_neg hfile.symm, fileFault?]
  have hensure : (f.put other node).ensure (place ++ [(p.module : RawText)]) =
      (f.ensure (place ++ [(p.module : RawText)])).put other node :=
    Files.ensure_put hother hmodule.symm node f
  refine ⟨by rw [fault?, hmoduleFault, hfileFault, fault?], ?_⟩
  rw [settled, hmoduleFault, hfileFault, settled]
  cases moduleFault? f place p with
  | some e => rfl
  | none =>
    cases fileFault? f place p with
    | some e => exact hensure
    | none =>
      dsimp only
      rw [written, hensure, Files.put_comm hfile, written]

/-- Why a write failed if it did, and the tree after it. -/
def attempt (f : Files) (root : Path) (p : Placement) (content : String) :
    Option WriteError × Files :=
  match write f root p content with
  | (.ok (), g) => (none, g)
  | (.error e, g) => (some e, g)

theorem snd_attempt (f : Files) (root : Path) (p : Placement) (content : String) :
    (attempt f root p content).2 = (write f root p content).2 := by
  rw [attempt]
  obtain ⟨result, g⟩ := write f root p content
  cases result <;> rfl

theorem writes_attempt (f : Files) (root : Path) (p : Placement) (content : String) :
    f.Writes (· = f.placeOf (targetPath root p)) (attempt f root p content).2 := by
  rw [snd_attempt]
  exact writes_write f root p content

theorem attempt_of_leads (h : f.Leads root place) (hp : Named p) (content : String) :
    attempt f root p content = (fault? f root place p, settled f place p content) := by
  rw [attempt, write_of_leads h hp.module hp.fileName]
  cases fault? f root place p <;> rfl

/-- A write depends on what becomes of the directory of the module alone. -/
theorem attempt_congr {g : Files}
    (h : f.makeDirectories (root.join p.module) = g.makeDirectories (root.join p.module))
    (content : String) : attempt f root p content = attempt g root p content := by
  unfold attempt write Files.changeIn
  dsimp only
  rw [h]

theorem attempt_of_error {g : Files} {e : FileError}
    (h : f.makeDirectories (root.join p.module) = (.error e, g)) (content : String) :
    attempt f root p content = (some ⟨root.join p.module, e⟩, g) := by
  unfold attempt write Files.changeIn
  dsimp only
  rw [h]

/-- Go files of different places are written in either order: in the end the tree is the same, and
what fails are the same writes. -/
theorem attempt_comm (hp : Named p) (hq : Named q) (hne : p ≠ q) (f : Files) (root : Path)
    (content other : String) :
    (attempt (attempt f root p content).2 root q other).2 =
        (attempt (attempt f root q other).2 root p content).2 ∧
      (attempt (attempt f root p content).2 root q other).1.isSome =
        (attempt f root q other).1.isSome := by
  rcases f.makes_or_blocks root with ⟨g, place, hmakes⟩ | ⟨g, hblocks⟩
  · have hclosed {r : Placement} (hr : Named r) (c : String) :
        attempt f root r c = (fault? g root place r, settled g place r c) :=
      (attempt_congr (hmakes.join _ hr.module) c).trans (attempt_of_leads hmakes.leads hr c)
    rw [hclosed hp, hclosed hq, attempt_of_leads (leads_settled hmakes.leads p content) hq,
      attempt_of_leads (leads_settled hmakes.leads q other) hp, fault?_settled hne]
    exact ⟨settled_comm hne g place content other, rfl⟩
  · have hnow {r : Placement} (hr : Named r) (c : String) :
        ∃ e, attempt f root r c = (some e, g) := by
      obtain ⟨e, he⟩ := hblocks.now.fails _ hr.module
      exact ⟨_, attempt_of_error he c⟩
    have hlater {r : Placement} (hr : Named r) (c : String) :
        ∃ e, attempt g root r c = (some e, g) := by
      obtain ⟨e, he⟩ := hblocks.later.fails _ hr.module
      exact ⟨_, attempt_of_error he c⟩
    obtain ⟨ep, hep⟩ := hnow hp content
    obtain ⟨eq, heq⟩ := hnow hq other
    obtain ⟨ep', hep'⟩ := hlater hp content
    obtain ⟨eq', heq'⟩ := hlater hq other
    rw [hep, heq, hep', heq']
    exact ⟨rfl, rfl⟩

/-! ## What another write changes -/

/-- A Go file of a directory that is there is read from its place. -/
theorem read_of_leads (hf : f.WellFormed) (h : f.Leads root place) (hp : Named p)
    {bytes : ByteArray} : f.read (targetPath root p) = .ok bytes ↔
      f.node? (place ++ [(p.module : RawText), p.fileName]) = some (.file bytes) := by
  rw [Files.read_eq_ok]
  constructor
  · rintro ⟨q, htarget, hnode, -⟩
    obtain ⟨outer, houter, -, -, -, rfl⟩ :=
      Files.leads_of_target_join_join hp.module hp.fileName htarget
    rw [h.unique houter] at hnode
    exact hnode
  · intro hnode
    have hreached := hf.reached _ (by rw [hnode]; exact Option.some_ne_none _)
    have hsize (name : RawText) (hname : name ∈ place ++ [(p.module : RawText), p.fileName]) :
        name.bytes.length ≤ Files.maxNameSize := (hreached.named name hname).2
    have hmodule : f.node? (place ++ [(p.module : RawText)]) = some .directory :=
      hreached.above _ p.fileName [] (by rw [List.append_assoc]; rfl)
    have htarget := (h.join hp.module (hsize _ (by simp)) hmodule).target_join hp.fileName
    rw [if_neg (Nat.not_lt.2 (hsize _ (by simp))), List.append_assoc] at htarget
    exact ⟨_, htarget, hnode, Files.namesDirectory_join _ hp.fileName⟩

theorem holds_of_leads (hf : f.WellFormed) (h : f.Leads root place) (hp : Named p) :
    holds f (targetPath root p) content = true ↔
      f.node? (place ++ [(p.module : RawText), p.fileName]) = some (.file content.toUTF8) := by
  rw [holds_eq_true, read_of_leads hf h hp]

theorem exists_leads_of_holds (hp : Named p) (h : holds f (targetPath root p) content = true) :
    ∃ place, f.Leads root place := by
  obtain ⟨q, htarget, -⟩ := Files.read_eq_ok.1 (holds_eq_true.1 h)
  obtain ⟨place, hleads, -⟩ := Files.leads_of_target_join_join hp.module hp.fileName htarget
  exact ⟨place, hleads⟩

/-- An output directory that is there, or whose path does not climb: one that climbs may lead through a
directory that is made on the way, so that something else is found there when it is tried again. -/
structure Steady (root : Path) (f : Files) : Prop where
  wellFormed : f.WellFormed
  climbs : .up ∈ root.components → ∃ place, f.Leads root place

namespace Steady

theorem writes {W : List RawText → Prop} {g : Files} (h : Steady root f) (hwrites : f.Writes W g) :
    Steady root g :=
  ⟨hwrites.wellFormed h.wellFormed, fun hup =>
    (h.climbs hup).imp fun _ hleads => hleads.writes hwrites⟩

/-- A write fails as it would have without another one. -/
theorem fst_attempt_attempt (h : Steady root f) (hp : Named p) (hq : Named q) (hne : p ≠ q)
    (content other : String) :
    (attempt (attempt f root p content).2 root q other).1 = (attempt f root q other).1 := by
  rcases f.makes_or_blocks root with ⟨g, place, hmakes⟩ | ⟨g, hblocks⟩
  · have hclosed {r : Placement} (hr : Named r) (c : String) :
        attempt f root r c = (fault? g root place r, settled g place r c) :=
      (attempt_congr (hmakes.join _ hr.module) c).trans (attempt_of_leads hmakes.leads hr c)
    rw [hclosed hp, hclosed hq, attempt_of_leads (leads_settled hmakes.leads p content) hq,
      fault?_settled hne]
  · have hup : .up ∉ root.components := fun hmem =>
      (h.climbs hmem).elim hblocks.now.not_leads
    obtain ⟨e, he⟩ := hblocks.now.fails _ hp.module
    rw [attempt_of_error he, attempt_congr (hblocks.steady h.wellFormed hup hq.module)]

/-- A Go file that is found in an output directory once that is made was found before. -/
theorem holds_of_makes {g : Files} (h : Steady root f) (hmakes : f.Makes root g place)
    (hp : Named p) (hnode : g.node? (place ++ [(p.module : RawText), p.fileName]) =
      some (.file content.toUTF8)) : holds f (targetPath root p) content = true := by
  have hwrites : f.Writes (fun _ => False) g := by
    have hwrites := Files.writes_makeDirectories (W := fun _ => False) f root
    rwa [hmakes.made] at hwrites
  have hbefore := hwrites.file_before not_false hnode
  have hleads : ∃ other, f.Leads root other := by
    by_cases hup : .up ∈ root.components
    · exact h.climbs hup
    · have hreached := h.wellFormed.reached _ (by rw [hbefore]; exact Option.some_ne_none _)
      rw [← List.singleton_append, ← List.append_assoc] at hreached
      rw [← hmakes.leads.placeOf, hwrites.placeOf] at hreached
      exact ⟨_, Files.leads_of_reached_join hup hp.module hreached.of_append⟩
  obtain ⟨other, hother⟩ := hleads
  obtain ⟨rfl, rfl⟩ := hmakes.eq_of_leads hother
  exact (holds_of_leads h.wellFormed hother hp).2 hnode

/-- What a Go file holds does not depend on another write. -/
theorem holds_attempt (h : Steady root f) (hp : Named p) (hq : Named q) (hne : p ≠ q)
    (content other : String) :
    holds (attempt f root p content).2 (targetPath root q) other =
      holds f (targetPath root q) other := by
  have hlater := h.writes (writes_attempt f root p content)
  rw [Bool.eq_iff_iff]
  rcases f.makes_or_blocks root with ⟨g, place, hmakes⟩ | ⟨g, hblocks⟩
  · have hclosed : attempt f root p content = (fault? g root place p, settled g place p content) :=
      (attempt_congr (hmakes.join _ hp.module) content).trans (attempt_of_leads hmakes.leads hp _)
    rw [hclosed] at hlater ⊢
    rw [holds_of_leads hlater.wellFormed (leads_settled hmakes.leads p content) hq,
      node?_settled_of_ne hne]
    refine ⟨h.holds_of_makes hmakes hq, fun hholds => ?_⟩
    obtain ⟨other, hother⟩ := exists_leads_of_holds hq hholds
    obtain ⟨rfl, rfl⟩ := hmakes.eq_of_leads hother
    exact (holds_of_leads h.wellFormed hother hq).1 hholds
  · obtain ⟨e, he⟩ := hblocks.now.fails _ hp.module
    rw [attempt_of_error he]
    refine ⟨fun hholds => ?_, fun hholds => ?_⟩
    · obtain ⟨place, hleads⟩ := exists_leads_of_holds hq hholds
      exact absurd hleads (hblocks.later.not_leads place)
    · obtain ⟨place, hleads⟩ := exists_leads_of_holds hq hholds
      exact absurd hleads (hblocks.now.not_leads place)

end Steady

end Layout

end Recast
