/-
  Proofs/Run/Spelling.lean --- one input directory under different spellings.

  A scan finds the same files however their directory is spelled (`scan_spelling`), by their paths
  from the root.  The places of the translations do depend on the spelling: only a spelling that
  these paths begin with makes them relative to the input.  They are the same if the directories
  inside of the input tell apart what collides (`places_spelling`).
-/
import Recast.Proofs.Layout.Outer
import Recast.Proofs.Run.Analysis
import Recast.Proofs.Scan

set_option autoImplicit false

namespace Recast

/-! ## Scans -/

namespace Scan

theorem marks_spelling {root other : Path} {directory place : List RawText}
    (hnamed : ∀ name ∈ place, Path.IsName name) :
    marks root directory place = marks other directory place := by
  by_cases hbelow : directory.isPrefixOf place = true ∧ place.length > directory.length
  · obtain ⟨names, rfl⟩ := List.isPrefixOf_iff_prefix.1 hbelow.1
    obtain ⟨init, last, rfl⟩ : ∃ init last, names = init ++ [last] := by
      rcases List.eq_nil_or_concat names with rfl | ⟨init, last, rfl⟩
      · simp at hbelow
      · exact ⟨init, last, List.concat_eq_append⟩
    have hlast : Path.IsName last := hnamed last (by simp)
    unfold marks isSource
    rw [List.drop_left, pathBelow_append, pathBelow_append, Path.extension?_join _ hlast,
      Path.extension?_join _ hlast]
  · rw [marks, marks, decide_eq_false hbelow, Bool.false_and, Bool.false_and]

theorem sourcePlaces_spelling {f : Files} (hf : f.WellFormed) (root other : Path)
    (directory : List RawText) : sourcePlaces f root directory = sourcePlaces f other directory := by
  unfold sourcePlaces
  refine congrArg _ (List.filter_congr fun e he => ?_)
  have hnode : f.node? e.1 ≠ none := by
    unfold Files.node?
    split
    · exact Option.some_ne_none _
    · rw [(Table.get?_eq_some_iff _).2 he]
      exact Option.some_ne_none _
  have hnamed : ∀ name ∈ e.1, Path.IsName name := fun name hname =>
    ((hf.reached _ hnode).named name hname).1
  rw [marks_spelling hnamed]

/-- The files of a directory are what is found in the places of its source files. -/
theorem files_of_directory {f : Files} (hf : f.WellFormed) (s : Settings) {root : Path}
    {directory : List RawText} (hroot : f.find root = .ok (directory, .directory)) :
    (discover f root directory).filterMap (fun path => (inspect s f path).1.toOption) =
      (sourcePlaces f root directory).filterMap fun place =>
        (f.node? place).bind fun node =>
          match node with
          | .file content => found? s place content
          | .directory => none := by
  rw [discover_eq, List.filterMap_map]
  refine List.filterMap_congr fun place hplace => ?_
  obtain ⟨hmarks, content, hnode⟩ := mem_sourcePlaces.1 hplace
  obtain ⟨hbelow, hlength⟩ := of_decide_eq_true (Bool.and_eq_true_iff.1 hmarks).1
  obtain ⟨names, rfl⟩ := List.isPrefixOf_iff_prefix.1 hbelow
  have hne : names ≠ [] := by
    rintro rfl
    simp at hlength
  rw [Function.comp_apply, List.drop_left, toOption_inspect (find_pathBelow hf hroot hne hnode),
    hnode, Option.bind_some]

/-- A scan finds the same files however their directory is spelled. -/
theorem scan_spelling {f : Files} (hf : f.WellFormed) {s : Settings} {root other : Path}
    {directory : List RawText} (hroot : f.find root = .ok (directory, .directory))
    (hother : f.find other = .ok (directory, .directory)) {found : Result} {log : Log}
    (h : scan s f root = .ok (found, log)) :
    ∃ found' log', scan s f other = .ok (found', log') ∧ found'.files = found.files := by
  have hcandidates {p : Path} (hp : f.find p = .ok (directory, .directory)) :
      candidates f p = .ok (discover f p directory) := by
    rw [candidates, hp]
  obtain ⟨paths, hpaths, hne, hfiles⟩ := scan_eq_ok h
  rw [hcandidates hroot] at hpaths
  cases hpaths
  have hne' : discover f other directory ≠ [] := by
    rw [discover_eq] at hne ⊢
    rw [sourcePlaces_spelling hf other root]
    simpa using hne
  obtain ⟨found', log', hscan, hfiles'⟩ := exists_scan (s := s) (hcandidates hother) hne'
  refine ⟨found', log', hscan, ?_⟩
  rw [hfiles, hfiles', files_of_directory hf s hroot, files_of_directory hf s hother,
    sourcePlaces_spelling hf other root]

/-- A file that is found in a directory is below it. -/
theorem exists_names_of_mem {f : Files} (hf : f.WellFormed) {s : Settings} {root : Path}
    {directory : List RawText} (hroot : f.find root = .ok (directory, .directory)) {found : Result}
    {log : Log} (h : scan s f root = .ok (found, log)) {file : SourceFile}
    (hfile : file ∈ found.files) :
    ∃ names, names ≠ [] ∧ file.path = Files.pathOf (directory ++ names) ∧
      ∀ name ∈ directory ++ names, Path.IsName name := by
  obtain ⟨paths, hpaths, -, hfiles⟩ := scan_eq_ok h
  rw [candidates, hroot] at hpaths
  cases hpaths
  rw [hfiles, discover_eq, List.filterMap_map] at hfile
  obtain ⟨place, hplace, hinspect⟩ := List.mem_filterMap.1 hfile
  obtain ⟨hmarks, content, hnode⟩ := mem_sourcePlaces.1 hplace
  obtain ⟨hbelow, hlength⟩ := of_decide_eq_true (Bool.and_eq_true_iff.1 hmarks).1
  obtain ⟨names, rfl⟩ := List.isPrefixOf_iff_prefix.1 hbelow
  have hne : names ≠ [] := by
    rintro rfl
    simp at hlength
  rw [Function.comp_apply, List.drop_left,
    toOption_inspect (find_pathBelow hf hroot hne hnode)] at hinspect
  refine ⟨names, hne, (of_found? hinspect).1, fun name hname => ?_⟩
  exact ((hf.reached _ (hnode ▸ Option.some_ne_none _)).named name hname).1

end Scan

/-! ## Paths relative to an input -/

namespace Run

/-- The paths of names put together are the names with slashes between them. -/
theorem ofComponents_names {names : List RawText} (hne : names ≠ []) :
    Path.ofComponents (names.map .normal) = ⟨RawText.joined names⟩ := by
  have hraws : (names.map Path.Component.normal).map Path.Component.raw = names := by
    rw [List.map_map]
    exact List.map_id names
  unfold Path.ofComponents
  split
  · next hnil => exact absurd (List.map_eq_nil_iff.1 hnil) hne
  · next hroot =>
    obtain ⟨name, rest, rfl⟩ := List.exists_cons_of_ne_nil hne
    cases (List.cons.inj hroot).1
  · rw [hraws]

/-- A path below an input that is given by its path from the root. -/
theorem relativeSource_pathOf {directory names : List RawText} (hne : names ≠ [])
    (hnamed : ∀ name ∈ directory ++ names, Path.IsName name) :
    relativeSource (Files.pathOf directory) (Files.pathOf (directory ++ names)) =
      ⟨RawText.joined names⟩ := by
  have hdirectory := Files.components_pathOf fun name hname =>
    hnamed name (List.mem_append_left names hname)
  have hcomponents : (Files.pathOf (directory ++ names)).components =
      (Files.pathOf directory).components ++ names.map .normal := by
    rw [Files.components_pathOf hnamed, hdirectory, List.map_append]
    rfl
  have hrelative : (Files.pathOf directory).relativeTo? (Files.pathOf (directory ++ names)) =
      some ⟨RawText.joined names⟩ := by
    unfold Path.relativeTo?
    dsimp only
    rw [hcomponents, if_pos (List.isPrefixOf_iff_prefix.2 (List.prefix_append _ _)),
      List.drop_left, ofComponents_names hne]
  have hjoined : RawText.joined names ≠ "" := by
    intro hempty
    have hnames := Path.components_joined
      (fun name hname => hnamed name (List.mem_append_right directory hname)) hne
    rw [Path.components_of_raw_eq_empty (p := ⟨RawText.joined names⟩) hempty] at hnames
    exact hne (List.map_eq_nil_iff.1 hnames.symm)
  rw [relativeSource, hrelative]
  dsimp only
  rw [if_neg hjoined]

theorem root_notMem_components {p : Path} (h : p.isAbsolute = false) :
    Path.Component.root ∉ p.components := by
  have hinner (pieces : List RawText) : Path.Component.root ∉ Path.innerComponents pieces := by
    intro hmem
    obtain ⟨piece, -, hpiece⟩ := List.mem_filterMap.1 hmem
    split at hpiece
    · cases hpiece
    · split at hpiece <;> cases hpiece
  obtain ⟨first, rest, hpieces⟩ := p.raw.exists_pieces
  rw [Path.components_eq hpieces, Path.leading, h, if_neg Bool.false_ne_true]
  intro hmem
  rcases List.mem_append.1 hmem with hmem | hmem
  · split at hmem
    · cases List.mem_singleton.1 hmem
    · exact hinner _ hmem
  · exact hinner _ hmem

theorem components_ne_nil {p : Path} (h : p.isAbsolute = false) (hne : p.raw ≠ "") :
    p.components ≠ [] := by
  obtain ⟨first, rest, hpieces⟩ := p.raw.exists_pieces
  -- What stands in front of the first slash is not empty.
  have hfirst : first ≠ "" := by
    rintro rfl
    unfold RawText.pieces at hpieces
    cases hbytes : p.raw.bytes with
    | nil => exact hne (RawText.ext hbytes)
    | cons b bs =>
      rw [Path.isAbsolute, hbytes, List.head?_cons] at h
      have hb : (b == RawText.slash) = false := h
      rw [hbytes, Text.splitAtClass, hb] at hpieces
      cases hsplit : Text.splitAtClass (· == RawText.slash) bs with
      | nil => exact Text.splitAtClass_ne_nil _ _ hsplit
      | cons piece pieces =>
        rw [hsplit] at hpieces
        cases congrArg RawText.bytes (List.cons.inj hpieces).1
  rw [Path.components_eq hpieces, Path.leading, h, if_neg Bool.false_ne_true]
  split
  · exact List.cons_ne_nil _ _
  · next hdot =>
    unfold Path.innerComponents
    rw [List.filterMap_cons, if_neg (by simp [hfirst, hdot])]
    split
    · next hnone => split at hnone <;> cases hnone
    · exact List.cons_ne_nil _ _

/-- A path from the root is not relative to an input that is given by a relative path. -/
theorem relativeSource_of_relative {input : Path} {place : List RawText}
    (hne : input.components ≠ []) (hinput : input.isAbsolute = false)
    (hnamed : ∀ name ∈ place, Path.IsName name) :
    relativeSource input (Files.pathOf place) = Files.pathOf place := by
  have hnone : input.relativeTo? (Files.pathOf place) = none := by
    unfold Path.relativeTo?
    dsimp only
    rw [if_neg]
    intro hbelow
    obtain ⟨c, cs, hcs⟩ := List.exists_cons_of_ne_nil hne
    rw [List.isPrefixOf_iff_prefix, Files.components_pathOf hnamed, hcs,
      List.cons_prefix_cons] at hbelow
    refine root_notMem_components hinput ?_
    rw [hcs, hbelow.1]
    exact .head _
  rw [relativeSource, hnone]

/-! ## The places of the translations -/

variable {σ : Type}

/-- Names that are put together in two steps make the same path. -/
theorem pathOf_joined {directory names : List RawText} (hne : names ≠ []) :
    Files.pathOf (directory ++ [RawText.joined names]) = Files.pathOf (directory ++ names) := by
  have hjoined : RawText.joined (directory ++ [RawText.joined names]) =
      RawText.joined (directory ++ names) := by
    induction directory with
    | nil => exact RawText.joined_singleton _
    | cons name directory ih =>
      obtain ⟨next, rest, hrest⟩ := List.exists_cons_of_ne_nil
        (List.append_ne_nil_of_right_ne_nil directory (List.cons_ne_nil (RawText.joined names) []))
      obtain ⟨next', rest', hrest'⟩ := List.exists_cons_of_ne_nil
        (List.append_ne_nil_of_right_ne_nil directory hne)
      rw [List.cons_append, List.cons_append, hrest, hrest', RawText.joined_cons_cons,
        RawText.joined_cons_cons, ← hrest, ← hrest', ih]
  rw [Files.pathOf, hjoined, Files.pathOf]

/-- Another spelling of the input as a relative path finds the same files, and it gives them the same
places as the path from the root if the directories inside of the input tell apart what collides. -/
theorem places_spelling {f : Files} (hf : f.WellFormed) {r : Request} {directory : List RawText}
    (hinput : f.find r.input = .ok (directory, .directory)) (hrelative : r.input.isAbsolute = false)
    {found : Scan.Result} {log : Log}
    (h : Scan.scan r.tools.scan f (Files.pathOf directory) = .ok (found, log))
    (happart : Layout.ToldApart r.tools.layout
      (found.files.map fun file => relativeSource (Files.pathOf directory) file.path))
    (s : Shared σ) :
    ∃ found' log', Scan.scan r.tools.scan f r.input = .ok (found', log') ∧
      (prepare r found' s).1.map (fun a => (a.file, a.placement)) =
        (prepare { r with input := Files.pathOf directory } found s).1.map
          fun a => (a.file, a.placement) := by
  have hreached := hf.reached_target (Files.find_eq_ok.1 hinput).1
  have hroot : f.find (Files.pathOf directory) = .ok (directory, .directory) :=
    Files.find_eq_ok.2 ⟨Files.target_pathOf hreached, (Files.find_eq_ok.1 hinput).2.1, nofun⟩
  obtain ⟨found', log', hscan, hfiles⟩ := Scan.scan_spelling hf hroot hinput h
  refine ⟨found', log', hscan, ?_⟩
  have hne : r.input.components ≠ [] := components_ne_nil hrelative (by
    intro hempty
    rw [Files.find, Files.target, if_pos hempty] at hinput
    cases hinput)
  have hfile (file : SourceFile) (hfile : file ∈ found.files) :
      relativeSource r.input file.path =
          Files.pathOf (directory ++ [(relativeSource (Files.pathOf directory) file.path).raw]) ∧
        Layout.Outer (.root :: directory.map .normal)
          (fun p => Files.pathOf (directory ++ [p.raw]))
          (relativeSource (Files.pathOf directory) file.path) := by
    obtain ⟨names, hnames, hpath, hnamed⟩ := Scan.exists_names_of_mem hf hroot h hfile
    have hinner := Path.components_joined
      (fun name hname => hnamed name (List.mem_append_right directory hname)) hnames
    rw [hpath, relativeSource_of_relative hne hrelative hnamed, relativeSource_pathOf hnames hnamed,
      pathOf_joined hnames]
    refine ⟨rfl, ?_, ?_⟩
    · rw [pathOf_joined hnames, Files.components_pathOf hnamed, hinner, List.map_append]
      rfl
    · rw [hinner]
      exact fun hnil => hnames (List.map_eq_nil_iff.1 hnil)
  -- Given by their paths from the root, the files are the same ones seen from further out.
  have houter : found.files.map (fun file => relativeSource r.input file.path) =
      (found.files.map fun file => relativeSource (Files.pathOf directory) file.path).map
        fun p => Files.pathOf (directory ++ [p.raw]) := by
    rw [List.map_map]
    exact List.map_congr_left fun file hmem => (hfile file hmem).1
  have hsources : ∀ p ∈ found.files.map (fun file =>
      relativeSource (Files.pathOf directory) file.path),
      Layout.Outer (.root :: directory.map .normal)
        (fun p => Files.pathOf (directory ++ [p.raw])) p := by
    intro p hp
    obtain ⟨file, hmem, rfl⟩ := List.mem_map.1 hp
    exact (hfile file hmem).2
  rw [places_prepare, places_prepare, hfiles, houter]
  exact congrArg _ (Layout.place_outer hsources happart)

/-! ## Two files of one name -/

/-- A tree with empty files in directories. -/
def treeOf (here : List RawText) (directories sources : List (List RawText)) : Files :=
  { nodes := .ofList (directories.map (·, .directory) ++ sources.map (·, .file ⟨#[]⟩)), here }

/-- The directory `in` in the working directory, with files in it. -/
def inputTree (sources : List (List RawText)) : Files :=
  treeOf ["w"] [["w"], ["w", "in"], ["w", "in", "a"], ["w", "in", "b"]]
    (sources.map ([("w" : RawText), "in"] ++ ·))

/-- The request to translate the directory under a spelling. -/
def spelled (input : String) : Request := { input := ⟨input⟩, output := ⟨"out"⟩ }

/-- Two things in order. -/
def sortPair {α : Type} (le : α → α → Bool) : List α → List α
  | [a, b] => if le a b then [a, b] else [b, a]
  | l => l

theorem mergeSort_eq_sortPair {α : Type} (le : α → α → Bool) {l : List α} (h : l.length ≤ 2) :
    l.mergeSort le = sortPair le l := by
  match l with
  | [] => exact List.mergeSort_nil
  | [a] => exact List.mergeSort_singleton a
  | [a, b] =>
    simp [List.mergeSort, List.MergeSort.Internal.splitInTwo, List.merge, sortPair]

theorem length_claim (taken : List (String × String)) (candidates : List Layout.Candidate) :
    (Layout.claim taken candidates).1.length = candidates.length := by
  induction candidates generalizing taken with
  | nil => rfl
  | cons c rest ih =>
    unfold Layout.claim
    dsimp only
    rw [List.length_cons, List.length_cons, ih]

/-- The places of two files. -/
theorem place_pair (s : Layout.Settings) {sources : List Path} (h : sources.length ≤ 2) :
    (Layout.place s sources).1 =
      (sortPair (fun a b => a.1 ≤ b.1) (Layout.claim [] (sortPair Layout.Candidate.before
        ((Layout.plainCandidates s sources).map
          (Layout.separate (Layout.plainCandidates s sources))))).1).map (·.2) := by
  have hlength : ((Layout.plainCandidates s sources).map
      (Layout.separate (Layout.plainCandidates s sources))).length ≤ 2 := by
    rwa [List.length_map, Layout.plainCandidates, List.length_mapIdx]
  unfold Layout.place
  dsimp only
  rw [← mergeSort_eq_sortPair _ hlength, ← mergeSort_eq_sortPair]
  rwa [length_claim, List.length_mergeSort]

/-- What is found at paths that are known. -/
theorem exists_scan_of_paths (s : Scan.Settings) (f : Files) (input : Path) (paths : List Path)
    (h : (Scan.scan s f input).toOption.map (fun found => found.1.files.map (·.path)) =
      some paths) :
    ∃ found log, Scan.scan s f input = .ok (found, log) ∧ found.files.map (·.path) = paths := by
  cases hscan : Scan.scan s f input with
  | error e =>
    rw [hscan] at h
    cases h
  | ok found =>
    rw [hscan] at h
    exact ⟨found.1, found.2, rfl, Option.some.inj h⟩

/-- The directory `a` of the input tells the two files apart in every spelling. -/
theorem places_spelling_directories :
    ∃ found found' log log',
      Scan.scan {} (inputTree [["a", "utils.py"], ["b", "utils.py"]]) ⟨"/w/in"⟩ =
          .ok (found, log) ∧
        Scan.scan {} (inputTree [["a", "utils.py"], ["b", "utils.py"]]) ⟨"in"⟩ =
          .ok (found', log') ∧
        found.files.map (·.path) = [⟨"/w/in/a/utils.py"⟩, ⟨"/w/in/b/utils.py"⟩] ∧
        (prepare (spelled "in") found' (Shared.openFor (spelled "in") {} ())).1.map
            (fun a => (a.file, a.placement)) =
          (prepare (spelled "/w/in") found (Shared.openFor (spelled "in") {} ())).1.map
            fun a => (a.file, a.placement) := by
  obtain ⟨found, log, hscan, hpaths⟩ := exists_scan_of_paths {}
    (inputTree [["a", "utils.py"], ["b", "utils.py"]]) ⟨"/w/in"⟩
    [⟨"/w/in/a/utils.py"⟩, ⟨"/w/in/b/utils.py"⟩] (by decide +kernel)
  have hsources : found.files.map (fun file => relativeSource ⟨"/w/in"⟩ file.path) =
      [⟨"a/utils.py"⟩, ⟨"b/utils.py"⟩] := by
    have hmap := congrArg (List.map (relativeSource ⟨"/w/in"⟩)) hpaths
    rw [List.map_map] at hmap
    exact hmap.trans (by decide +kernel)
  have hinput : (inputTree [["a", "utils.py"], ["b", "utils.py"]]).find (spelled "in").input =
      .ok (["w", "in"], .directory) := by decide +kernel
  have hdepth : ∀ c ∈ Layout.plainCandidates {} [⟨"a/utils.py"⟩, ⟨"b/utils.py"⟩],
      (∀ m ∈ (Layout.plainCandidates {} [⟨"a/utils.py"⟩, ⟨"b/utils.py"⟩]).filter c.collides,
        1 ≤ (Layout.directoryNames m.path).length) ∧
      (((Layout.plainCandidates {} [⟨"a/utils.py"⟩, ⟨"b/utils.py"⟩]).filter c.collides).map
        fun m => Layout.prefixed c.stem (Layout.directoryNames m.path) 1).Nodup := by
    decide +kernel
  have happart : Layout.ToldApart (spelled "in").tools.layout
      (found.files.map fun file => relativeSource (Files.pathOf ["w", "in"]) file.path) := by
    rw [show Files.pathOf ["w", "in"] = ⟨"/w/in"⟩ from rfl, hsources]
    exact fun c hc _ => ⟨1, Nat.le_refl 1, hdepth c hc⟩
  obtain ⟨found', log', hscan', hplaces⟩ := places_spelling (by decide +kernel) hinput (by decide)
    hscan happart (Shared.openFor (spelled "in") {} ())
  exact ⟨found, found', log, log', hscan, hscan', hpaths, hplaces⟩

/-- The path that an input is given by decides about the place of a file that no directory inside of
the input tells apart. -/
theorem places_fails_spelling :
    ∃ found found' log log',
      (inputTree [["a", "utils.py"], ["utils.py"]]).canonical ⟨"in"⟩ = .ok ⟨"/w/in"⟩ ∧
        Scan.scan {} (inputTree [["a", "utils.py"], ["utils.py"]]) ⟨"/w/in"⟩ =
          .ok (found, log) ∧
        Scan.scan {} (inputTree [["a", "utils.py"], ["utils.py"]]) ⟨"in"⟩ = .ok (found', log') ∧
        found.files.map (·.path) = [⟨"/w/in/a/utils.py"⟩, ⟨"/w/in/utils.py"⟩] ∧
        found'.files.map (·.path) = [⟨"/w/in/a/utils.py"⟩, ⟨"/w/in/utils.py"⟩] ∧
        (prepare (spelled "/w/in") found (Shared.openFor (spelled "/w/in") {} ())).1.map
          (·.placement) = [⟨"common", "a_utils.go"⟩, ⟨"common", "utils.go"⟩] ∧
        (prepare (spelled "in") found' (Shared.openFor (spelled "in") {} ())).1.map
          (·.placement) = [⟨"common", "a_utils.go"⟩, ⟨"common", "in_utils.go"⟩] := by
  obtain ⟨found, log, hscan, hpaths⟩ := exists_scan_of_paths {}
    (inputTree [["a", "utils.py"], ["utils.py"]]) ⟨"/w/in"⟩
    [⟨"/w/in/a/utils.py"⟩, ⟨"/w/in/utils.py"⟩] (by decide +kernel)
  obtain ⟨found', log', hscan', hpaths'⟩ := exists_scan_of_paths {}
    (inputTree [["a", "utils.py"], ["utils.py"]]) ⟨"in"⟩
    [⟨"/w/in/a/utils.py"⟩, ⟨"/w/in/utils.py"⟩] (by decide +kernel)
  refine ⟨found, found', log, log', by decide +kernel, hscan, hscan', hpaths, hpaths', ?_, ?_⟩
  · rw [placements_prepare, hpaths, place_pair _ (by decide)]
    decide +kernel
  · rw [placements_prepare, hpaths', place_pair _ (by decide)]
    decide +kernel

end Run

end Recast
