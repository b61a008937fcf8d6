/-
  Proofs/Scan/Sources.lean --- which files a scan of a directory finds and which it skips.

  The source files below a directory are told by their names alone (`IsSourceBelow`).  The places that
  a scan looks at are theirs (`mem_sourcePlaces_iff`), in an order that is also that of the paths, so
  every one of them is found or skipped once and in order (`scan_lists_sources`).  A walk that goes
  from a directory to what is in it, and leaves out those that are passed over, meets the same files in
  the same order (`discover_eq_walk`).
-/
import Recast.Proofs.Files.Remove
import Recast.Proofs.Scan

set_option autoImplicit false

namespace Recast

/-! ## The order of paths below a directory -/

namespace Path

/-- Paths in order, none of them twice. -/
def Ascending (paths : List Path) : Prop :=
  paths.Pairwise fun p q => p.le q = true ∧ p.same q = false

theorem le_and_not_same_of_key_lt {p q : Path} (h : p.key < q.key) :
    p.le q = true ∧ p.same q = false := by
  refine ⟨le_iff.2 (List.le_of_lt h), ?_⟩
  rw [← Bool.not_eq_true, same_iff_key]
  intro heq
  rw [heq] at h
  exact List.lt_irrefl _ h

theorem key_normal_lt {names others : List RawText} (h : names < others) :
    (names.map Component.normal).map Component.key <
      (others.map Component.normal).map Component.key := by
  induction names generalizing others with
  | nil =>
    cases others with
    | nil => exact absurd h (List.lt_irrefl _)
    | cons other others => exact List.nil_lt_cons _ _
  | cons name names ih =>
    cases others with
    | nil => exact absurd h (List.not_lt_nil _)
    | cons other others =>
      rw [List.map_cons, List.map_cons, List.map_cons, List.map_cons, List.cons_lt_cons_iff]
      rcases List.cons_lt_cons_iff.1 h with hlt | ⟨rfl, hlt⟩
      · have hkey : (("3" : RawText) ++ name).bytes < (("3" : RawText) ++ other).bytes :=
          List.append_left_lt hlt
        exact .inl hkey
      · exact .inr ⟨rfl, ih hlt⟩

theorem lt_of_append_lt {front names others : List RawText} (h : front ++ names < front ++ others) :
    names < others := by
  induction front with
  | nil => exact h
  | cons name front ih =>
    rcases List.cons_lt_cons_iff.1 h with hlt | ⟨-, hlt⟩
    · exact absurd hlt Std.lt_irrefl
    · exact ih hlt

/-- Paths with the same beginning are in the order of the names behind it. -/
theorem key_lt_of_names {p q : Path} {front : List Component} {names others : List RawText}
    (hp : p.components = front ++ names.map .normal)
    (hq : q.components = front ++ others.map .normal) (h : names < others) : p.key < q.key := by
  rw [key, key, hp, hq, List.map_append, List.map_append]
  exact List.append_left_lt (key_normal_lt h)

end Path

namespace Scan

/-! ## The source files below a directory -/

/-- Names below a directory that lead to a source file through directories that are not passed over.
-/
def IsSourceName (names : List RawText) : Prop :=
  ∃ (above : List RawText) (stem : RawText), names = above ++ [stem ++ ".py"] ∧ stem ≠ "" ∧
    ∀ name ∈ above, name ≠ "__pycache__" ∧ name.bytes.head? ≠ some RawText.dot

/-- A source file below a directory with the names that lead to it. -/
structure IsSourceBelow (f : Files) (directory names : List RawText) (content : ByteArray) :
    Prop where
  node : f.node? (directory ++ names) = some (.file content)
  names : IsSourceName names

theorem isIgnored_eq_false_iff {name : RawText} :
    isIgnored name = false ↔ name ≠ "__pycache__" ∧ name.bytes.head? ≠ some RawText.dot := by
  have hcompiled : name.text = "__pycache__" ↔ name = "__pycache__" :=
    RawText.text_eq_iff (by simp)
  have hhidden : name.text.toList.head? = some '.' ↔ name.bytes.head? = some RawText.dot :=
    RawText.head?_text (by decide) (by decide)
  simp only [isIgnored, Bool.or_eq_false_iff, beq_eq_false_iff_ne, ne_eq, hcompiled, hhidden]

theorem isSource_pathBelow_iff (root : Path) {above : List RawText} {name : RawText}
    (h : Path.IsName name) :
    isSource (pathBelow root (above ++ [name])) = true ↔
      ∃ stem : RawText, stem ≠ "" ∧ name = stem ++ ".py" := by
  rw [isSource, beq_iff_eq, pathBelow_append, Path.extension?_join _ h]
  exact Path.cutName_snd_eq_some_iff (by decide) (by decide)

/-- The places that a scan looks at are marked by the names below its directory. -/
theorem marks_iff {root : Path} {directory place : List RawText}
    (hnamed : ∀ name ∈ place, Path.IsName name) :
    marks root directory place = true ↔ ∃ names, place = directory ++ names ∧ IsSourceName names := by
  have hmarks (above : List RawText) (name : RawText)
      (hname : Path.IsName name) :
      marks root directory (directory ++ (above ++ [name])) = true ↔ IsSourceName (above ++ [name]) := by
    have hbelow : directory.isPrefixOf (directory ++ (above ++ [name])) = true ∧
        (directory ++ (above ++ [name])).length > directory.length := by
      refine ⟨List.isPrefixOf_iff_prefix.2 (List.prefix_append _ _), ?_⟩
      simp
    rw [marks, decide_eq_true hbelow, Bool.true_and, List.drop_left, List.dropLast_concat,
      Bool.and_eq_true_iff, isSource_pathBelow_iff root hname, Bool.not_eq_true',
      List.any_eq_false]
    simp only [Bool.not_eq_true, isIgnored_eq_false_iff]
    constructor
    · rintro ⟨⟨stem, hstem, rfl⟩, habove⟩
      exact ⟨above, stem, rfl, hstem, habove⟩
    · rintro ⟨above', stem, heq, hstem, habove⟩
      obtain ⟨rfl, hlast⟩ := List.append_inj' heq rfl
      exact ⟨⟨stem, hstem, (List.cons.inj hlast).1⟩, habove⟩
  constructor
  · intro h
    obtain ⟨hbelow, hlength⟩ := of_decide_eq_true (Bool.and_eq_true_iff.1 h).1
    obtain ⟨names, rfl⟩ := List.isPrefixOf_iff_prefix.1 hbelow
    rcases List.eq_nil_or_concat names with rfl | ⟨above, name, rfl⟩
    · simp at hlength
    · rw [List.concat_eq_append] at h hnamed ⊢
      exact ⟨_, rfl, (hmarks above name (hnamed name (by simp))).1 h⟩
  · rintro ⟨names, rfl, hnames⟩
    obtain ⟨above, stem, rfl, -⟩ := id hnames
    exact (hmarks above _ (hnamed _ (by simp))).2 hnames

/-- The places that a scan looks at are those of the source files below its directory. -/
theorem mem_sourcePlaces_iff {f : Files} (hf : f.WellFormed) {root : Path}
    {directory place : List RawText} :
    place ∈ sourcePlaces f root directory ↔
      ∃ names content, place = directory ++ names ∧ IsSourceBelow f directory names content := by
  rw [mem_sourcePlaces]
  have hnamed {content : ByteArray} (hnode : f.node? place = some (.file content)) :
      ∀ name ∈ place, Path.IsName name := by
    intro name hname
    exact ((hf.reached place (by rw [hnode]; exact nofun)).named name hname).1
  constructor
  · rintro ⟨hmarks, content, hnode⟩
    obtain ⟨names, rfl, hnames⟩ := (marks_iff (hnamed hnode)).1 hmarks
    exact ⟨names, content, rfl, hnode, hnames⟩
  · rintro ⟨names, content, rfl, hnode, hnames⟩
    exact ⟨(marks_iff (hnamed hnode)).2 ⟨names, rfl, hnames⟩, content, hnode⟩

theorem IsSourceBelow.named {f : Files} (hf : f.WellFormed) {directory names : List RawText}
    {content : ByteArray} (h : IsSourceBelow f directory names content) :
    ∀ name ∈ directory ++ names, Path.IsName name := by
  intro name hname
  have hnode : f.node? (directory ++ names) ≠ none := by
    rw [h.node]
    exact nofun
  exact ((hf.reached _ hnode).named name hname).1

theorem IsSourceBelow.ne_nil {f : Files} {directory names : List RawText} {content : ByteArray}
    (h : IsSourceBelow f directory names content) : names ≠ [] := by
  obtain ⟨above, stem, rfl, -⟩ := h.names
  simp

theorem IsSourceBelow.mem_entries {f : Files} {directory names : List RawText} {content : ByteArray}
    (h : IsSourceBelow f directory names content) :
    (directory ++ names, .file content) ∈ f.nodes.entries := by
  have hnode := h.node
  have hne : directory ++ names ≠ [] := List.append_ne_nil_of_right_ne_nil _ h.ne_nil
  rwa [Files.node?, if_neg hne, Table.get?_eq_some_iff] at hnode

/-- The path of a source file below a directory leads to it. -/
theorem IsSourceBelow.find {f : Files} (hf : f.WellFormed) {root : Path} {directory : List RawText}
    (hroot : f.find root = .ok (directory, .directory)) {names : List RawText} {content : ByteArray}
    (h : IsSourceBelow f directory names content) :
    f.find (pathBelow root names) = .ok (directory ++ names, .file content) :=
  find_pathBelow hf hroot h.ne_nil h.node

/-! ## The walk through a directory -/

/-- What is in a directory, in the order of the names. -/
def entriesOf (f : Files) (place : List RawText) : List (RawText × Files.Node) :=
  f.nodes.entries.filterMap fun e => (Files.childName? place e.1).map (·, e.2)

theorem mem_entriesOf_iff {f : Files} {place : List RawText} {name : RawText} {node : Files.Node} :
    (name, node) ∈ entriesOf f place ↔ f.node? (place ++ [name]) = some node := by
  have hne : place ++ [name] ≠ [] := by simp
  rw [entriesOf, List.mem_filterMap, Files.node?, if_neg hne, Table.get?_eq_some_iff]
  constructor
  · rintro ⟨⟨names, node'⟩, hmem, hname⟩
    obtain ⟨child, hchild, heq⟩ := Option.map_eq_some_iff.1 hname
    cases heq
    rwa [← Files.childName?_eq_some.1 hchild]
  · intro hmem
    refine ⟨_, hmem, ?_⟩
    rw [Files.childName?_eq_some.2 rfl]
    rfl

theorem ascending_entriesOf (f : Files) (place : List RawText) :
    (entriesOf f place).Pairwise fun a b => a.1 < b.1 := by
  rw [entriesOf, List.pairwise_filterMap]
  refine f.nodes.ascending.imp ?_
  intro a b hlt x hx y hy
  obtain ⟨name, hname, rfl⟩ := Option.map_eq_some_iff.1 hx
  obtain ⟨other, hother, rfl⟩ := Option.map_eq_some_iff.1 hy
  rw [Files.childName?_eq_some.1 hname, Files.childName?_eq_some.1 hother] at hlt
  rcases List.cons_lt_cons_iff.1 (Path.lt_of_append_lt hlt) with h | ⟨-, h⟩
  · exact h
  · exact absurd h (List.lt_irrefl _)

/-- The names of the source files that a walk meets through an entry of a directory, where those below
a directory are known.  It does not go into a directory that is passed over. -/
def walkThrough (below : RawText → List (List RawText)) : RawText × Files.Node → List (List RawText)
  | (name, .file _) => if (Path.cutName name).2 = some (RawText.ofString "py") then [[name]] else []
  | (name, .directory) => if isIgnored name then [] else (below name).map (name :: ·)

/-- The names of the source files to a depth below a place, in the order in which a walk meets them. -/
def walk (f : Files) (place : List RawText) : Nat → List (List RawText)
  | 0 => []
  | depth + 1 =>
    (entriesOf f place).flatMap (walkThrough fun name => walk f (place ++ [name]) depth)

theorem mem_walkThrough_iff {below : RawText → List (List RawText)} {name : RawText}
    {node : Files.Node} {names : List RawText} :
    names ∈ walkThrough below (name, node) ↔ ∃ rest, names = name :: rest ∧
      (((∃ content, node = .file content) ∧ rest = [] ∧
          (Path.cutName name).2 = some (RawText.ofString "py")) ∨
        (node = .directory ∧ isIgnored name = false ∧ rest ∈ below name)) := by
  cases node with
  | file content =>
    by_cases hpy : (Path.cutName name).2 = some (RawText.ofString "py")
    · simp [walkThrough, hpy]
    · simp [walkThrough, hpy]
  | directory =>
    cases hkept : isIgnored name with
    | false => simp [walkThrough, hkept, eq_comm, and_comm]
    | true => simp [walkThrough, hkept]

theorem mem_walk_succ_iff {f : Files} {place names : List RawText} {depth : Nat} :
    names ∈ walk f place (depth + 1) ↔ ∃ name rest, names = name :: rest ∧
      ((∃ content, f.node? (place ++ [name]) = some (.file content) ∧ rest = [] ∧
          (Path.cutName name).2 = some (RawText.ofString "py")) ∨
        (f.node? (place ++ [name]) = some .directory ∧ isIgnored name = false ∧
          rest ∈ walk f (place ++ [name]) depth)) := by
  rw [walk, List.mem_flatMap]
  constructor
  · rintro ⟨⟨name, node⟩, hentry, hmem⟩
    rw [mem_entriesOf_iff] at hentry
    obtain ⟨rest, rfl, ⟨⟨content, rfl⟩, hrest, hpy⟩ | ⟨rfl, hkept, hrest⟩⟩ :=
      mem_walkThrough_iff.1 hmem
    · exact ⟨name, rest, rfl, .inl ⟨content, hentry, hrest, hpy⟩⟩
    · exact ⟨name, rest, rfl, .inr ⟨hentry, hkept, hrest⟩⟩
  · rintro ⟨name, rest, rfl, ⟨content, hnode, hrest, hpy⟩ | ⟨hnode, hkept, hrest⟩⟩
    · exact ⟨_, mem_entriesOf_iff.2 hnode,
        mem_walkThrough_iff.2 ⟨rest, rfl, .inl ⟨⟨content, rfl⟩, hrest, hpy⟩⟩⟩
    · exact ⟨_, mem_entriesOf_iff.2 hnode,
        mem_walkThrough_iff.2 ⟨rest, rfl, .inr ⟨rfl, hkept, hrest⟩⟩⟩

theorem isSourceName_singleton_iff {name : RawText} :
    IsSourceName [name] ↔ (Path.cutName name).2 = some (RawText.ofString "py") := by
  have hpy : (".py" : RawText) = "." ++ "py" := by decide
  rw [Path.cutName_snd_eq_some_iff (by decide) (by decide), ← hpy]
  constructor
  · rintro ⟨above, stem, heq, hstem, -⟩
    have hsplit : [] ++ [name] = above ++ [stem ++ ".py"] := heq
    obtain ⟨-, hlast⟩ := List.append_inj' hsplit rfl
    exact ⟨stem, hstem, (List.cons.inj hlast).1⟩
  · rintro ⟨stem, hstem, rfl⟩
    exact ⟨[], stem, rfl, hstem, by simp⟩

theorem isSourceName_cons_iff {name : RawText} {rest : List RawText} (h : rest ≠ []) :
    IsSourceName (name :: rest) ↔ isIgnored name = false ∧ IsSourceName rest := by
  rw [isIgnored_eq_false_iff]
  constructor
  · rintro ⟨above, stem, heq, hstem, habove⟩
    cases above with
    | nil => exact absurd (List.cons.inj heq).2 h
    | cons first above =>
      obtain ⟨rfl, rfl⟩ := List.cons.inj heq
      exact ⟨habove _ (.head _), above, stem, rfl, hstem, fun n hn => habove n (.tail _ hn)⟩
  · rintro ⟨hname, above, stem, rfl, hstem, habove⟩
    exact ⟨name :: above, stem, rfl, hstem, List.forall_mem_cons.2 ⟨hname, habove⟩⟩

/-- A walk meets the source files that are not below its depth. -/
theorem mem_walk_iff {f : Files} (hf : f.WellFormed) {place names : List RawText} {depth : Nat} :
    names ∈ walk f place depth ↔
      names.length ≤ depth ∧ ∃ content, IsSourceBelow f place names content := by
  induction depth generalizing place names with
  | zero =>
    refine iff_of_false List.not_mem_nil ?_
    rintro ⟨hlength, content, hsource⟩
    exact hsource.ne_nil (List.length_eq_zero_iff.1 (Nat.le_zero.1 hlength))
  | succ depth ih =>
    rw [mem_walk_succ_iff]
    constructor
    · rintro ⟨name, rest, rfl, ⟨content, hnode, rfl, hpy⟩ | ⟨-, hkept, hrest⟩⟩
      · exact ⟨by simp, content, hnode, isSourceName_singleton_iff.2 hpy⟩
      · obtain ⟨hlength, content, hsource⟩ := ih.1 hrest
        refine ⟨Nat.succ_le_succ hlength, content, ?_, ?_⟩
        · rw [List.append_cons]
          exact hsource.node
        · exact (isSourceName_cons_iff hsource.ne_nil).2 ⟨hkept, hsource.names⟩
    · rintro ⟨hlength, content, hsource⟩
      cases names with
      | nil => exact absurd rfl hsource.ne_nil
      | cons name rest =>
        refine ⟨name, rest, rfl, ?_⟩
        by_cases hrest : rest = []
        · rw [hrest] at hsource
          exact .inl ⟨content, hsource.node, hrest, isSourceName_singleton_iff.1 hsource.names⟩
        · obtain ⟨hkept, hnames⟩ := (isSourceName_cons_iff hrest).1 hsource.names
          have hnode := hsource.node
          rw [List.append_cons] at hnode
          refine .inr ⟨?_, hkept, ih.2 ⟨Nat.le_of_succ_le_succ hlength, content, hnode, hnames⟩⟩
          obtain ⟨next, after, rfl⟩ := List.exists_cons_of_ne_nil hrest
          have hreached := hf.reached _ (by rw [hnode]; exact nofun)
          exact hreached.above (place ++ [name]) next after rfl

theorem ascending_walkThrough {below : RawText → List (List RawText)}
    (h : ∀ name, (below name).Pairwise (· < ·)) (e : RawText × Files.Node) :
    (walkThrough below e).Pairwise (· < ·) := by
  obtain ⟨name, node⟩ := e
  unfold walkThrough
  split
  · split
    · exact List.pairwise_singleton _ _
    · exact .nil
  · split
    · exact .nil
    · refine List.pairwise_map.2 ((h _).imp ?_)
      intro a b hlt
      exact List.cons_lt_cons_iff.2 (.inr ⟨rfl, hlt⟩)

/-- A walk meets what is below a directory in the place of the directory among the other entries. -/
theorem ascending_walk (f : Files) (place : List RawText) (depth : Nat) :
    (walk f place depth).Pairwise (· < ·) := by
  induction depth generalizing place with
  | zero => exact .nil
  | succ depth ih =>
    rw [walk, List.pairwise_flatMap]
    refine ⟨fun e _ => ascending_walkThrough (fun name => ih _) e, ?_⟩
    refine (ascending_entriesOf f place).imp ?_
    intro a b hlt names hnames others hothers
    obtain ⟨rest, rfl, -⟩ := mem_walkThrough_iff.1 hnames
    obtain ⟨rest', rfl, -⟩ := mem_walkThrough_iff.1 hothers
    exact List.cons_lt_cons_iff.2 (.inl hlt)

/-- A scan looks at the files that a walk meets if it is deep enough, in the order of the walk. -/
theorem discover_eq_walk {f : Files} (hf : f.WellFormed) (root : Path) (directory : List RawText)
    {depth : Nat}
    (hdepth : ∀ e ∈ f.nodes.entries, e.1.length ≤ directory.length + depth) :
    discover f root directory = (walk f directory depth).map (pathBelow root) := by
  have hplaces : sourcePlaces f root directory =
      (walk f directory depth).map (directory ++ ·) := by
    refine Table.eq_of_ascending (ascending_sourcePlaces f root directory) ?_ ?_
    · refine List.pairwise_map.2 ((ascending_walk f directory depth).imp ?_)
      intro a b hlt
      exact List.append_left_lt hlt
    · intro place
      rw [mem_sourcePlaces_iff hf, List.mem_map]
      constructor
      · rintro ⟨names, content, rfl, hsource⟩
        have hlength := hdepth _ hsource.mem_entries
        rw [List.length_append] at hlength
        exact ⟨names, (mem_walk_iff hf).2 ⟨by omega, content, hsource⟩, rfl⟩
      · rintro ⟨names, hnames, rfl⟩
        obtain ⟨-, content, hsource⟩ := (mem_walk_iff hf).1 hnames
        exact ⟨names, content, rfl, hsource⟩
  rw [discover_eq, hplaces, List.map_map]
  refine List.map_congr_left fun names _ => ?_
  rw [Function.comp_apply, List.drop_left]

/-! ## What becomes of a source file -/

/-- Why a content does not parse, if it does not. -/
def syntaxError? (content : ByteArray) : Option String :=
  match Outline.ofBytes content with
  | .ok _ => none
  | .error e => some e.message

theorem isSome_syntaxError?_iff {content : ByteArray} :
    (syntaxError? content).isSome = true ↔ ∃ e, Outline.ofBytes content = .error e := by
  unfold syntaxError?
  cases Outline.ofBytes content <;> simp

/-- Why a file above the size limit is skipped. -/
def tooLarge (s : Settings) (content : ByteArray) : String :=
  "file is " ++ toString content.size ++ " bytes, above the " ++ toString s.maxSize ++ " byte limit"

/-- A file that is there is skipped if it is too large, and found otherwise. -/
theorem inspect_of_find (s : Settings) {f : Files} {path : Path} {place : List RawText}
    {content : ByteArray} (h : f.find path = .ok (place, .file content)) :
    (inspect s f path).1 =
      if content.size > s.maxSize then .error (tooLarge s content)
      else .ok ⟨Files.pathOf place, content, syntaxError? content⟩ := by
  have hcanonical : f.canonical path = .ok (Files.pathOf place) := by
    rw [Files.canonical, h]
    rfl
  have hread : f.read path = .ok content := by
    rw [Files.read, h]
    rfl
  unfold inspect syntaxError?
  rw [hcanonical, hread]
  dsimp only
  split
  · rfl
  · cases Outline.ofBytes content <;> rfl

/-- The outcome of a scan holds the source files below its directory, each of them once: under the
files that are skipped if it is above the size limit, and under those that are found otherwise. -/
structure ListsSources (s : Settings) (f : Files) (root : Path) (directory : List RawText)
    (found : Result) : Prop where
  /-- A file that is found has its path from the root of the tree, and is marked if it does not parse.
  -/
  files : ∀ file, file ∈ found.files ↔ ∃ names content, IsSourceBelow f directory names content ∧
    content.size ≤ s.maxSize ∧
    file = ⟨Files.pathOf (directory ++ names), content, syntaxError? content⟩
  /-- A file that is skipped has its path below the path that was given. -/
  skipped : ∀ e, e ∈ found.skipped ↔ ∃ names content, IsSourceBelow f directory names content ∧
    s.maxSize < content.size ∧ e = ⟨pathBelow root names, tooLarge s content⟩
  marked : ∀ file ∈ found.files,
    file.syntaxError.isSome = true ↔ ∃ e, Outline.ofBytes file.content = .error e
  filesAscending : Path.Ascending (found.files.map (·.path))
  skippedAscending : Path.Ascending (found.skipped.map (·.path))

section Directory

variable {s : Settings} {f : Files} {root : Path} {directory : List RawText}

/-- What the candidates of a scan give, told by the source files below its directory. -/
theorem mem_filterMap_discover {α : Type} (hf : f.WellFormed) {g : Path → Option α} {a : α} :
    a ∈ (discover f root directory).filterMap g ↔
      ∃ names content, IsSourceBelow f directory names content ∧
        g (pathBelow root names) = some a := by
  rw [discover_eq, List.filterMap_map, List.mem_filterMap]
  constructor
  · rintro ⟨place, hplace, hg⟩
    obtain ⟨names, content, rfl, hsource⟩ := (mem_sourcePlaces_iff hf).1 hplace
    rw [Function.comp_apply, List.drop_left] at hg
    exact ⟨names, content, hsource, hg⟩
  · rintro ⟨names, content, hsource, hg⟩
    refine ⟨directory ++ names, (mem_sourcePlaces_iff hf).2 ⟨names, content, rfl, hsource⟩, ?_⟩
    rw [Function.comp_apply, List.drop_left]
    exact hg

/-- What the candidates of a scan give is in order if it has paths that keep the order of names. -/
theorem ascending_filterMap_discover {α : Type} (hf : f.WellFormed) {g : Path → Option α}
    {path : α → Path} (front : List Path.Component)
    (h : ∀ names content a, IsSourceBelow f directory names content →
      g (pathBelow root names) = some a →
      (path a).components = front ++ names.map .normal) :
    Path.Ascending (((discover f root directory).filterMap g).map path) := by
  rw [Path.Ascending, List.pairwise_map, List.pairwise_filterMap, discover_eq, List.pairwise_map]
  refine (ascending_sourcePlaces f root directory).imp_of_mem ?_
  intro place other hplace hother hlt a ha b hb
  obtain ⟨names, content, rfl, hsource⟩ := (mem_sourcePlaces_iff hf).1 hplace
  obtain ⟨others, content', rfl, hsource'⟩ := (mem_sourcePlaces_iff hf).1 hother
  rw [List.drop_left] at ha hb
  refine Path.le_and_not_same_of_key_lt (Path.key_lt_of_names (h names content a hsource ha)
    (h others content' b hsource' hb) ?_)
  exact Path.lt_of_append_lt hlt

theorem candidates_of_directory (hroot : f.find root = .ok (directory, .directory)) :
    candidates f root = .ok (discover f root directory) := by
  rw [candidates, hroot]

/-- A source file is found up to the size limit. -/
theorem IsSourceBelow.toOption_inspect_iff (hf : f.WellFormed)
    (hroot : f.find root = .ok (directory, .directory)) {names : List RawText} {content : ByteArray}
    (h : IsSourceBelow f directory names content) {file : SourceFile} :
    (inspect s f (pathBelow root names)).1.toOption = some file ↔ content.size ≤ s.maxSize ∧
      file = ⟨Files.pathOf (directory ++ names), content, syntaxError? content⟩ := by
  rw [inspect_of_find s (h.find hf hroot)]
  by_cases hlarge : content.size > s.maxSize
  · simp [hlarge, Nat.not_le.2 hlarge, Except.toOption]
  · simp [hlarge, Nat.not_lt.1 hlarge, Except.toOption, eq_comm]

/-- A source file is skipped above the size limit. -/
theorem IsSourceBelow.skipped?_iff (hf : f.WellFormed)
    (hroot : f.find root = .ok (directory, .directory)) {names : List RawText} {content : ByteArray}
    (h : IsSourceBelow f directory names content) {e : Skipped} :
    skipped? s f (pathBelow root names) = some e ↔
      s.maxSize < content.size ∧ e = ⟨pathBelow root names, tooLarge s content⟩ := by
  rw [skipped?, inspect_of_find s (h.find hf hroot)]
  by_cases hlarge : content.size > s.maxSize
  · simp [hlarge, eq_comm]
  · simp [hlarge]

theorem listsSources_of_scan (hf : f.WellFormed)
    (hroot : f.find root = .ok (directory, .directory)) {found : Result} {log : Log}
    (h : scan s f root = .ok (found, log)) : ListsSources s f root directory found := by
  obtain ⟨paths, hpaths, -, hfiles⟩ := scan_eq_ok h
  have hskipped := skipped_of_scan h (candidates_of_directory hroot)
  rw [candidates_of_directory hroot] at hpaths
  cases hpaths
  have hmem (file : SourceFile) : file ∈ found.files ↔ ∃ names content,
      IsSourceBelow f directory names content ∧ content.size ≤ s.maxSize ∧
        file = ⟨Files.pathOf (directory ++ names), content, syntaxError? content⟩ := by
    rw [hfiles, mem_filterMap_discover hf]
    exact exists_congr fun _ => exists_congr fun _ =>
      and_congr_right fun hsource => hsource.toOption_inspect_iff hf hroot
  refine ⟨hmem, ?_, ?_, ?_, ?_⟩
  · intro e
    rw [hskipped, mem_filterMap_discover hf]
    exact exists_congr fun _ => exists_congr fun _ =>
      and_congr_right fun hsource => hsource.skipped?_iff hf hroot
  · intro file hfile
    obtain ⟨names, content, -, -, rfl⟩ := (hmem file).1 hfile
    exact isSome_syntaxError?_iff
  · rw [hfiles]
    refine ascending_filterMap_discover hf (.root :: directory.map .normal) ?_
    intro names content file hsource hfile
    obtain ⟨-, rfl⟩ := (hsource.toOption_inspect_iff hf hroot).1 hfile
    rw [Files.components_pathOf (hsource.named hf), List.map_append]
    rfl
  · rw [hskipped]
    refine ascending_filterMap_discover hf root.components ?_
    intro names content e hsource he
    obtain ⟨-, rfl⟩ := (hsource.skipped?_iff hf hroot).1 he
    exact components_pathBelow root fun name hname =>
      hsource.named hf name (List.mem_append_right _ hname)

/-- There is nothing to look at exactly if there are no source files below the directory. -/
theorem discover_eq_nil_iff (hf : f.WellFormed) :
    discover f root directory = [] ↔ ∀ names content, ¬IsSourceBelow f directory names content := by
  rw [discover_eq, List.map_eq_nil_iff, List.eq_nil_iff_forall_not_mem]
  constructor
  · intro h names content hsource
    exact h _ ((mem_sourcePlaces_iff hf).2 ⟨names, content, rfl, hsource⟩)
  · intro h place hplace
    obtain ⟨names, content, -, hsource⟩ := (mem_sourcePlaces_iff hf).1 hplace
    exact h names content hsource

/-- A scan of a directory fails exactly if there are no source files below it, and lists these
otherwise.  It looks at what a walk meets, in the order of the walk. -/
theorem scan_lists_sources (hf : f.WellFormed)
    (hroot : f.find root = .ok (directory, .directory)) (s : Settings) :
    (scan s f root = .error (.noFiles root) ↔
      ∀ names content, ¬IsSourceBelow f directory names content) ∧
    ((∃ names content, IsSourceBelow f directory names content) →
      ∃ found log, scan s f root = .ok (found, log) ∧ ListsSources s f root directory found) ∧
    ∀ depth, (∀ e ∈ f.nodes.entries, e.1.length ≤ directory.length + depth) →
      candidates f root = .ok ((walk f directory depth).map (pathBelow root)) := by
  have hexists (hne : discover f root directory ≠ []) :
      ∃ found log, scan s f root = .ok (found, log) ∧ ListsSources s f root directory found := by
    obtain ⟨found, log, hscan, -⟩ := exists_scan (s := s) (candidates_of_directory hroot) hne
    exact ⟨found, log, hscan, listsSources_of_scan hf hroot hscan⟩
  refine ⟨?_, ?_, ?_⟩
  · have hnone : discover f root directory = [] ↔ _ := discover_eq_nil_iff hf
    rw [← hnone]
    constructor
    · intro h
      by_contra hne
      obtain ⟨found, log, hscan, -⟩ := hexists hne
      rw [h] at hscan
      cases hscan
    · intro hnil
      rw [scan, candidates_of_directory hroot, hnil]
  · rintro ⟨names, content, hsource⟩
    refine hexists fun hnil => ?_
    exact (discover_eq_nil_iff hf).1 hnil names content hsource
  · intro depth hdepth
    rw [candidates_of_directory hroot, discover_eq_walk hf root directory hdepth]

end Directory

/-- A directory with a hidden file, hidden and compiled directories, and a file that is too large. -/
def prunedTree : Files :=
  { nodes := .ofList
      [(["in"], .directory), (["in", ".cache.py"], .file ⟨#[]⟩), (["in", ".venv"], .directory),
        (["in", ".venv", "site.py"], .file ⟨#[]⟩), (["in", "a"], .directory),
        (["in", "a", "__pycache__"], .directory),
        (["in", "a", "__pycache__", "ledger.py"], .file ⟨#[]⟩),
        (["in", "a", "ledger.py"], .file ⟨#[]⟩), (["in", "b.py"], .file ⟨#[0, 0, 0, 0]⟩),
        (["in", "notes.txt"], .file ⟨#[]⟩)] }

theorem scan_lists_sources_pruned :
    (∃ found log, scan { maxSize := 3 } prunedTree ⟨"/in"⟩ = .ok (found, log) ∧
      ListsSources { maxSize := 3 } prunedTree ⟨"/in"⟩ ["in"] found) ∧
    (scan { maxSize := 3 } prunedTree ⟨"/in"⟩).toOption.map (fun found =>
        (found.1.files.map (·.path), found.1.skipped.map (·.path))) =
      some ([⟨"/in/.cache.py"⟩, ⟨"/in/a/ledger.py"⟩], [⟨"/in/b.py"⟩]) ∧
    candidates prunedTree ⟨"/in"⟩ =
      .ok ((walk prunedTree ["in"] 3).map (pathBelow ⟨"/in"⟩)) := by
  have hwellFormed : prunedTree.WellFormed := by decide +kernel
  have hroot : prunedTree.find ⟨"/in"⟩ = .ok (["in"], .directory) := by decide +kernel
  have hledger : IsSourceBelow prunedTree ["in"] ["a", "ledger.py"] ⟨#[]⟩ := by
    refine ⟨by decide +kernel, ["a"], "ledger", by decide, by decide, ?_⟩
    intro name hname
    rw [List.mem_singleton.1 hname]
    decide
  obtain ⟨-, hlists, hwalk⟩ := scan_lists_sources hwellFormed hroot { maxSize := 3 }
  exact ⟨hlists ⟨_, _, hledger⟩, by decide +kernel, hwalk 3 (by decide +kernel)⟩

end Scan

end Recast
