/-
  Proofs/Scan.lean --- what a scan finds, and what it finds again in a tree that has changed.

  A scan of a directory finds the files at certain places in the order of these places
  (`discover_eq`).  So a later scan of a tree with the same source files finds the same paths, and
  with them what the files hold by then (`scan_again`).
-/
import Mathlib.Data.List.Forall2
import Mathlib.Data.List.Nodup
import Recast.Proofs.Files.Writes
import Recast.Proofs.Table
import Recast.Scan

set_option autoImplicit false

namespace Recast.Scan

/-! ## Paths below a directory -/

theorem components_pathBelow (root : Path) {names : List RawText}
    (h : ∀ name ∈ names, Path.IsName name) :
    (pathBelow root names).components = root.components ++ names.map .normal := by
  induction names generalizing root with
  | nil => simp [pathBelow]
  | cons name names ih =>
    rw [pathBelow, List.foldl_cons]
    have hrest := ih (root.join name) fun n hn => h n (.tail _ hn)
    rw [pathBelow] at hrest
    rw [hrest, Path.components_join root (h name (.head _)), List.append_assoc]
    rfl

theorem isAbsolute_pathBelow (root : Path) {names : List RawText}
    (h : ∀ name ∈ names, Path.IsName name) :
    (pathBelow root names).isAbsolute = root.isAbsolute := by
  induction names generalizing root with
  | nil => rfl
  | cons name names ih =>
    have hrest := ih (root.join name) fun n hn => h n (.tail _ hn)
    rw [Path.isAbsolute_join root (h name (.head _))] at hrest
    exact hrest

theorem pathBelow_append (root : Path) (names : List RawText) (name : RawText) :
    pathBelow root (names ++ [name]) = (pathBelow root names).join name := by
  rw [pathBelow, List.foldl_append]
  rfl

/-- The path of names below a directory finds the file that is there. -/
theorem find_pathBelow {f : Files} (hf : f.WellFormed) {root : Path} {place names : List RawText}
    {content : ByteArray} (hroot : f.find root = .ok (place, .directory)) (hne : names ≠ [])
    (hnode : f.node? (place ++ names) = some (.file content)) :
    f.find (pathBelow root names) = .ok (place ++ names, .file content) := by
  have hreached := hf.reached (place ++ names) (hnode ▸ Option.some_ne_none _)
  have hnamed (name : RawText) (hname : name ∈ names) : Path.IsName name :=
    (hreached.named name (List.mem_append_right place hname)).1
  obtain ⟨htarget, -, -⟩ := Files.find_eq_ok.1 hroot
  have hfollow : f.follow (if root.isAbsolute then [] else f.here) root.components = .ok place := by
    unfold Files.target at htarget
    split at htarget
    · cases htarget
    · exact htarget
  obtain ⟨init, last, rfl⟩ : ∃ init last, names = init ++ [last] :=
    ⟨names.dropLast, names.getLast hne, (List.dropLast_concat_getLast hne).symm⟩
  have hlast := hnamed last (List.mem_append_right init (.head _))
  refine Files.find_eq_ok.2 ⟨?_, hnode, fun _ => ?_⟩
  · have hraw : (pathBelow root (init ++ [last])).raw ≠ "" := by
      rw [pathBelow_append]
      exact Path.raw_join_ne_empty _ hlast
    rw [Files.target, if_neg hraw, isAbsolute_pathBelow root hnamed,
      components_pathBelow root hnamed, Files.follow_append f _ _ _ hfollow]
    exact Files.follow_names hreached
  · rw [pathBelow_append]
    exact Files.namesDirectory_join _ hlast

/-! ## The files of a directory -/

/-- A place whose name has the ending of source files. -/
def IsSourcePlace (place : List RawText) : Prop :=
  ∃ above name, place = above ++ [name] ∧ (Path.cutName name).2 = some (RawText.ofString "py")

/-- The name of a source file ends in the letter that its ending ends in. -/
theorem getLast?_of_isSourcePlace {above : List RawText} {name : RawText}
    (h : IsSourcePlace (above ++ [name])) : name.bytes.getLast? = some 0x79 := by
  obtain ⟨other, name', heq, hname⟩ := h
  cases (List.append_inj' heq rfl).2
  obtain ⟨stem, -, rfl⟩ := (Path.cutName_snd_eq_some_iff (by decide) (by decide)).1 hname
  rw [RawText.bytes_append, List.getLast?_append]
  rfl

/-- A place with another name is none of a source file. -/
theorem not_isSourcePlace {above : List RawText} {name : String} {c : Char}
    (hlast : name.toList.getLast? = some c) (hc : c ≠ 'y') :
    ¬IsSourcePlace (above ++ [(name : RawText)]) := by
  intro h
  have hy := RawText.getLast?_of_ofString (c := 'y') (by decide) (getLast?_of_isSourcePlace h)
  exact hc (Option.some.inj (hlast.symm.trans hy))

/-- Whether a scan of a directory looks at a file at a place. -/
def marks (root : Path) (directory place : List RawText) : Bool :=
  decide (directory.isPrefixOf place = true ∧ place.length > directory.length) &&
    (isSource (pathBelow root (place.drop directory.length)) &&
      !(place.drop directory.length).dropLast.any isIgnored)

/-- Whether a node is a file. -/
def isFile : Files.Node → Bool
  | .file _ => true
  | .directory => false

/-- The places of the source files below a directory, in order. -/
def sourcePlaces (files : Files) (root : Path) (directory : List RawText) : List (List RawText) :=
  (files.nodes.entries.filter fun e => marks root directory e.1 && isFile e.2).map (·.1)

theorem discover_eq (files : Files) (root : Path) (directory : List RawText) :
    discover files root directory =
      (sourcePlaces files root directory).map fun place =>
        pathBelow root (place.drop directory.length) := by
  unfold discover Files.below sourcePlaces
  induction files.nodes.entries with
  | nil => rfl
  | cons e entries ih =>
    obtain ⟨names, node⟩ := e
    rw [List.filterMap_cons, List.filter_cons]
    by_cases hbelow : directory.isPrefixOf names = true ∧ names.length > directory.length
    · dsimp only
      rw [if_pos hbelow]
      dsimp only
      rw [List.filterMap_cons]
      cases node with
      | directory => simpa [isFile] using ih
      | file content =>
        have hkeep : (marks root directory names && isFile (.file content)) =
            (isSource (pathBelow root (names.drop directory.length)) &&
              !(names.drop directory.length).dropLast.any isIgnored) := by
          rw [marks, decide_eq_true hbelow, isFile, Bool.true_and, Bool.and_true]
        rw [hkeep]
        dsimp only
        split
        · next hnone =>
          split at hnone
          · cases hnone
          · next hnot => rw [if_neg hnot, ih]
        · next path hsome =>
          split at hsome
          · next hmarks =>
            cases hsome
            rw [if_pos hmarks, List.map_cons, List.map_cons, ih]
          · cases hsome
    · have hskip : (marks root directory names && isFile node) = false := by
        rw [marks, decide_eq_false hbelow, Bool.false_and, Bool.false_and]
      dsimp only
      rw [if_neg hbelow, hskip]
      exact ih

theorem mem_sourcePlaces {files : Files} {root : Path} {directory place : List RawText} :
    place ∈ sourcePlaces files root directory ↔
      marks root directory place = true ∧ ∃ content, files.node? place = some (.file content) := by
  have hentry (content : ByteArray) (hmarks : marks root directory place = true) :
      (place, .file content) ∈ files.nodes.entries ↔
        files.node? place = some (.file content) := by
    have hne : place ≠ [] := by
      rintro rfl
      simp [marks] at hmarks
    rw [Files.node?, if_neg hne, Table.get?_eq_some_iff]
  constructor
  · intro h
    obtain ⟨⟨names, node⟩, hmem, rfl⟩ := List.mem_map.1 h
    obtain ⟨hmem, hkept⟩ := List.mem_filter.1 hmem
    obtain ⟨hmarks, hfile⟩ := Bool.and_eq_true_iff.1 hkept
    cases node with
    | directory => cases hfile
    | file content => exact ⟨hmarks, content, (hentry content hmarks).1 hmem⟩
  · rintro ⟨hmarks, content, hnode⟩
    refine List.mem_map.2 ⟨(place, .file content), List.mem_filter.2 ⟨?_, ?_⟩, rfl⟩
    · exact (hentry content hmarks).2 hnode
    · exact Bool.and_eq_true_iff.2 ⟨hmarks, rfl⟩

theorem ascending_sourcePlaces (files : Files) (root : Path) (directory : List RawText) :
    (sourcePlaces files root directory).Pairwise (· < ·) :=
  List.pairwise_map.2 (files.nodes.ascending.filter _)

/-- A place with the ending of source files when its path has it. -/
theorem isSourcePlace_of_isSource {f : Files} {p : Path} (h : isSource p = true) :
    IsSourcePlace (f.placeOf p) := by
  have hextension : p.extension? = some (RawText.ofString "py") := by simpa [isSource] using h
  obtain ⟨name, hname, hcut⟩ := Option.bind_eq_some_iff.1 hextension
  obtain ⟨above, hplace⟩ := Files.exists_placeOf (f := f) hname
  exact ⟨above, name, hplace, hcut⟩

theorem isSourcePlace_of_marks {root : Path} {directory place : List RawText}
    (hnamed : ∀ name ∈ place, Path.IsName name) (h : marks root directory place = true) :
    IsSourcePlace place := by
  obtain ⟨hmarked, hmarks⟩ := Bool.and_eq_true_iff.1 h
  obtain ⟨hbelow, hlength⟩ := of_decide_eq_true hmarked
  obtain ⟨names, rfl⟩ := List.isPrefixOf_iff_prefix.1 hbelow
  rw [List.drop_left] at hmarks
  obtain ⟨init, last, rfl⟩ : ∃ init last, names = init ++ [last] := by
    rcases List.eq_nil_or_concat names with rfl | ⟨init, last, rfl⟩
    · simp at hlength
    · exact ⟨init, last, List.concat_eq_append⟩
  have hextension :
      (pathBelow root (init ++ [last])).extension? = some (RawText.ofString "py") := by
    simpa [isSource] using (Bool.and_eq_true_iff.1 hmarks).1
  obtain ⟨name, hname, hcut⟩ := Option.bind_eq_some_iff.1 hextension
  have hcomponents := components_pathBelow root fun n hn => hnamed n (List.mem_append_right _ hn)
  have hlast : last = name := by
    unfold Path.fileName? at hname
    rw [hcomponents, List.map_append, ← List.append_assoc, List.map_singleton,
      List.getLast?_concat] at hname
    exact Option.some.inj hname
  exact ⟨directory ++ init, name, by rw [hlast, List.append_assoc], hcut⟩

/-! ## What a scan finds -/

/-- A file with a content at a place as it is found, unless it is too large. -/
def found? (s : Settings) (place : List RawText) (content : ByteArray) : Option SourceFile :=
  if content.size > s.maxSize then none
  else
    let file : SourceFile := ⟨Files.pathOf place, content, none⟩
    match Outline.ofBytes content with
    | .ok _ => some file
    | .error e => some (file.markBroken e.message)

theorem toOption_inspect {s : Settings} {f : Files} {path : Path} {place : List RawText}
    {content : ByteArray} (h : f.find path = .ok (place, .file content)) :
    (inspect s f path).1.toOption = found? s place content := by
  have hcanonical : f.canonical path = .ok (Files.pathOf place) := by
    rw [Files.canonical, h]
    rfl
  have hread : f.read path = .ok content := by
    rw [Files.read, h]
    rfl
  unfold inspect found?
  rw [hcanonical, hread]
  dsimp only
  split
  · rfl
  · cases Outline.ofBytes content <;> rfl

/-- What is known about a file that is found. -/
theorem of_found? {s : Settings} {place : List RawText} {content : ByteArray} {file : SourceFile}
    (h : found? s place content = some file) :
    file.path = Files.pathOf place ∧ file.content = content ∧ content.size ≤ s.maxSize ∧
      (file.syntaxError = none → ∃ outline, Outline.ofBytes content = .ok outline) := by
  unfold found? at h
  split at h
  · cases h
  · next hsize =>
    dsimp only at h
    split at h
    · next outline houtline =>
      cases h
      exact ⟨rfl, rfl, Nat.not_lt.1 hsize, fun _ => ⟨outline, houtline⟩⟩
    · cases h
      exact ⟨rfl, rfl, Nat.not_lt.1 hsize, nofun⟩

/-- A file that parses is found as it is. -/
theorem found?_of_ok {s : Settings} {place : List RawText} {content : ByteArray} {outline : Outline}
    (hsize : content.size ≤ s.maxSize) (h : Outline.ofBytes content = .ok outline) :
    found? s place content = some ⟨Files.pathOf place, content, none⟩ := by
  rw [found?, if_neg (Nat.not_lt.2 hsize), h]

theorem files_foldl_add (s : Settings) (f : Files) (paths : List Path) (result : Result × Log) :
    (paths.foldl (add s f) result).1.files =
      result.1.files ++ paths.filterMap fun path => (inspect s f path).1.toOption := by
  induction paths generalizing result with
  | nil => simp
  | cons path paths ih =>
    rw [List.foldl_cons, ih, add, List.filterMap_cons]
    split
    · next file log heq =>
      rw [heq]
      simp [Except.toOption]
    · next reason log heq =>
      rw [heq]
      simp [Except.toOption]

/-- What a scan finds is what its candidates are found to be. -/
theorem scan_eq_ok {s : Settings} {f : Files} {input : Path} {found : Result} {log : Log}
    (h : scan s f input = .ok (found, log)) :
    ∃ paths, candidates f input = .ok paths ∧ paths ≠ [] ∧
      found.files = paths.filterMap fun path => (inspect s f path).1.toOption := by
  unfold scan at h
  split at h
  · cases h
  · cases h
  · next paths hne hcandidates =>
    cases h
    refine ⟨paths, hcandidates, fun hnil => hne hnil, ?_⟩
    rw [files_foldl_add]
    rfl

theorem exists_scan {s : Settings} {f : Files} {input : Path} {paths : List Path}
    (h : candidates f input = .ok paths) (hne : paths ≠ []) :
    ∃ found log, scan s f input = .ok (found, log) ∧
      found.files = paths.filterMap fun path => (inspect s f path).1.toOption := by
  unfold scan
  rw [h]
  cases paths with
  | nil => exact absurd rfl hne
  | cons path paths =>
    refine ⟨_, _, rfl, ?_⟩
    exact (files_foldl_add s f (path :: paths) ({}, [])).trans (List.nil_append _)

/-- The candidates are the paths of different places with source files. -/
theorem exists_places {f : Files} (hf : f.WellFormed) {input : Path} {paths : List Path}
    (h : candidates f input = .ok paths) :
    ∃ (places : List (List RawText)) (raw : List RawText → Path), paths = places.map raw ∧
      places.Nodup ∧ ∀ place ∈ places, IsSourcePlace place ∧
        ∃ content, f.find (raw place) = .ok (place, .file content) := by
  unfold candidates at h
  split at h
  · cases h
  · next place content hfind =>
    cases h
    split
    · next hsource =>
      refine ⟨[place], fun _ => input, rfl, by simp, fun q hq => ?_⟩
      rw [List.mem_singleton.1 hq]
      have hplace := Files.target_eq_ok (Files.find_eq_ok.1 hfind).1
      exact ⟨hplace ▸ isSourcePlace_of_isSource hsource, content, hfind⟩
    · exact ⟨[], fun _ => input, rfl, List.nodup_nil, fun _ hq => absurd hq List.not_mem_nil⟩
  · next directory hfind =>
    cases h
    refine ⟨_, _, discover_eq f input directory, ?_, fun place hplace => ?_⟩
    · refine (ascending_sourcePlaces f input directory).imp fun hlt heq => ?_
      exact Std.lt_irrefl (heq ▸ hlt)
    · obtain ⟨hmarks, content, hnode⟩ := mem_sourcePlaces.1 hplace
      have hreached := hf.reached place (hnode ▸ Option.some_ne_none _)
      refine ⟨isSourcePlace_of_marks (fun name hname => (hreached.named name hname).1) hmarks,
        content, ?_⟩
      obtain ⟨hbelow, hlength⟩ := of_decide_eq_true (Bool.and_eq_true_iff.1 hmarks).1
      obtain ⟨names, rfl⟩ := List.isPrefixOf_iff_prefix.1 hbelow
      rw [List.drop_left]
      refine find_pathBelow hf hfind ?_ hnode
      rintro rfl
      simp at hlength

/-- Where a file that is found is. -/
theorem exists_place_of_mem {s : Settings} {f : Files} (hf : f.WellFormed) {input : Path}
    {found : Result} {log : Log} (h : scan s f input = .ok (found, log)) {file : SourceFile}
    (hfile : file ∈ found.files) :
    ∃ place, IsSourcePlace place ∧ f.node? place = some (.file file.content) ∧
      file.path = Files.pathOf place ∧ file.content.size ≤ s.maxSize ∧
      (file.syntaxError = none → ∃ outline, Outline.ofBytes file.content = .ok outline) := by
  obtain ⟨paths, hcandidates, -, hfiles⟩ := scan_eq_ok h
  obtain ⟨places, raw, rfl, -, hplaces⟩ := exists_places hf hcandidates
  rw [hfiles] at hfile
  obtain ⟨path, hpath, hinspect⟩ := List.mem_filterMap.1 hfile
  obtain ⟨place, hplace, rfl⟩ := List.mem_map.1 hpath
  obtain ⟨hsource, content, hfind⟩ := hplaces place hplace
  rw [toOption_inspect hfind] at hinspect
  obtain ⟨hpath, rfl, hsize, hparses⟩ := of_found? hinspect
  exact ⟨place, hsource, (Files.find_eq_ok.1 hfind).2.1, hpath, hsize, hparses⟩

/-- A path with the reason why its file is skipped, if it is. -/
def skipped? (s : Settings) (f : Files) (path : Path) : Option Skipped :=
  match (inspect s f path).1 with
  | .ok _ => none
  | .error reason => some ⟨path, reason⟩

theorem skipped_foldl_add (s : Settings) (f : Files) (paths : List Path) (result : Result × Log) :
    (paths.foldl (add s f) result).1.skipped =
      result.1.skipped ++ paths.filterMap (skipped? s f) := by
  induction paths generalizing result with
  | nil => simp
  | cons path paths ih =>
    rw [List.foldl_cons, ih, add, List.filterMap_cons, skipped?]
    split
    · next file log heq =>
      rw [heq]
    · next reason log heq =>
      rw [heq]
      simp

theorem skipped_of_scan {s : Settings} {f : Files} {input : Path} {found : Result} {log : Log}
    {paths : List Path} (h : scan s f input = .ok (found, log))
    (hcandidates : candidates f input = .ok paths) :
    found.skipped = paths.filterMap (skipped? s f) := by
  unfold scan at h
  rw [hcandidates] at h
  split at h
  · cases h
  · cases h
  · next paths' hne heq =>
    cases h
    cases heq
    rw [skipped_foldl_add]
    rfl

/-- What is found and what is skipped are all the candidates, each of them once: they are different
files, and each is skipped or found. -/
theorem perm_of_scan {s : Settings} {f : Files} (hf : f.WellFormed) {input : Path} {found : Result}
    {log : Log} (h : scan s f input = .ok (found, log)) :
    ∃ paths, candidates f input = .ok paths ∧ (paths.map f.canonical).Nodup ∧
      (found.skipped.map (fun skipped : Skipped => f.canonical skipped.path) ++
        found.files.map fun file : SourceFile => Except.ok file.path).Perm (paths.map f.canonical) := by
  obtain ⟨paths, hcandidates, -, hfiles⟩ := scan_eq_ok h
  rw [skipped_of_scan h hcandidates, hfiles]
  refine ⟨paths, hcandidates, ?_, ?_⟩
  · obtain ⟨places, raw, rfl, hnodup, hplaces⟩ := exists_places hf hcandidates
    have hcanonical (place : List RawText) (hplace : place ∈ places) :
        f.canonical (raw place) = .ok (Files.pathOf place) ∧ ∀ name ∈ place, Path.IsName name := by
      obtain ⟨-, content, hfind⟩ := hplaces place hplace
      have hreached := hf.reached place (by rw [(Files.find_eq_ok.1 hfind).2.1]; exact nofun)
      refine ⟨?_, fun name hname => (hreached.named name hname).1⟩
      rw [Files.canonical, hfind]
      rfl
    rw [List.map_map]
    refine List.Nodup.map_on (fun p hp q hq heq => ?_) hnodup
    rw [Function.comp_apply, Function.comp_apply, (hcanonical p hp).1, (hcanonical q hq).1] at heq
    exact Files.pathOf_injective (hcanonical p hp).2 (hcanonical q hq).2 (Except.ok.inj heq)
  · clear hcandidates hfiles h
    induction paths with
    | nil => exact .nil
    | cons path paths ih =>
      rw [List.filterMap_cons, List.filterMap_cons, skipped?, List.map_cons]
      cases hinspect : (inspect s f path).1 with
      | error reason =>
        dsimp only [Except.toOption]
        rw [List.map_cons, List.cons_append]
        exact ih.cons _
      | ok file =>
        have hpath : f.canonical path = .ok file.path := by
          unfold inspect at hinspect
          split at hinspect
          · next full content hcanonical hread =>
            rw [hcanonical]
            split at hinspect
            · cases hinspect
            · dsimp only at hinspect
              split at hinspect <;> cases hinspect <;> rfl
          · cases hinspect
          · cases hinspect
        dsimp only [Except.toOption]
        rw [List.map_cons, hpath]
        exact List.perm_middle.trans (ih.cons _)

/-- The files that are found have paths of their own. -/
theorem nodup_paths {s : Settings} {f : Files} (hf : f.WellFormed) {input : Path} {found : Result}
    {log : Log} (h : scan s f input = .ok (found, log)) : (found.files.map (·.path)).Nodup := by
  obtain ⟨paths, -, hnodup, hperm⟩ := perm_of_scan hf h
  have hfound := (List.nodup_append.1 (hperm.nodup_iff.2 hnodup)).2.1
  have hpaths : ((found.files.map (·.path)).map (Except.ok : Path → Except FileError Path)).Nodup := by
    rwa [List.map_map]
  exact hpaths.of_map _

/-! ## A later scan -/

/-- A tree with the source files of an earlier one.  A file whose path is among the changed ones
holds something else that parses, the others hold what they held. -/
structure Follows (s : Settings) (changed : Path → Prop) (f g : Files) : Prop where
  here : g.here = f.here
  directory : ∀ place, f.node? place = some .directory → g.node? place = some .directory
  before : ∀ place content, IsSourcePlace place → g.node? place = some (.file content) →
    ∃ earlier, f.node? place = some (.file earlier)
  after : ∀ place earlier, IsSourcePlace place → f.node? place = some (.file earlier) →
    ∃ content, g.node? place = some (.file content) ∧
      ((¬changed (Files.pathOf place) ∧ content = earlier) ∨
        (changed (Files.pathOf place) ∧ earlier.size ≤ s.maxSize ∧ content.size ≤ s.maxSize ∧
          (∃ outline, Outline.ofBytes content = .ok outline) ∧
          Digest.ofBytes content ≠ Digest.ofBytes earlier))

/-- A source file and what was found in its place later. -/
structure Again (changed : Path → Prop) (earlier later : SourceFile) : Prop where
  path : later.path = earlier.path
  kept : ¬changed earlier.path → later = earlier
  edited : changed earlier.path → later.syntaxError = none ∧ later.digest ≠ earlier.digest ∧
    ∃ outline, Outline.ofBytes later.content = .ok outline

theorem Follows.find {s : Settings} {changed : Path → Prop} {f g : Files}
    (h : Follows s changed f g) {path : Path} {place : List RawText} {content later : ByteArray}
    (hfind : f.find path = .ok (place, .file content))
    (hnode : g.node? place = some (.file later)) : g.find path = .ok (place, .file later) := by
  obtain ⟨htarget, -, hname⟩ := Files.find_eq_ok.1 hfind
  exact Files.find_eq_ok.2
    ⟨Files.target_mono h.here h.directory htarget, hnode, fun _ => hname nofun⟩

/-- Nothing is noticed of what was written elsewhere before. -/
theorem Follows.of_writes {s : Settings} {changed : Path → Prop} {f g k : Files}
    (hwrites : f.Writes (fun place => ¬IsSourcePlace place) g) (h : Follows s changed g k) :
    Follows s changed f k where
  here := h.here.trans hwrites.here
  directory place hplace := h.directory place (hwrites.directory hplace)
  before place content hsource hnode := by
    obtain ⟨earlier, hearlier⟩ := h.before place content hsource hnode
    exact ⟨earlier, hwrites.file_before (not_not.2 hsource) hearlier⟩
  after place earlier hsource hnode := by
    refine h.after place earlier hsource ?_
    rw [hwrites.node_eq (not_not.2 hsource) (by rw [hnode]; exact Option.some_ne_none _), hnode]

theorem candidates_again {s : Settings} {changed : Path → Prop} {f g : Files} (hf : f.WellFormed)
    (hg : g.WellFormed) (h : Follows s changed f g) {input : Path} {paths : List Path}
    (hcandidates : candidates f input = .ok paths) (hne : paths ≠ []) :
    candidates g input = .ok paths := by
  unfold candidates at hcandidates ⊢
  split at hcandidates
  · cases hcandidates
  · next place content hfind =>
    cases hcandidates
    split at hne
    · next hsource =>
      have hplace := Files.target_eq_ok (Files.find_eq_ok.1 hfind).1
      obtain ⟨later, hlater, -⟩ := h.after place content
        (hplace ▸ isSourcePlace_of_isSource hsource) (Files.find_eq_ok.1 hfind).2.1
      rw [h.find hfind hlater]
    · exact absurd rfl hne
  · next directory hfind =>
    cases hcandidates
    obtain ⟨htarget, hnode, hname⟩ := Files.find_eq_ok.1 hfind
    have hfind' : g.find input = .ok (directory, .directory) := Files.find_eq_ok.2
      ⟨Files.target_mono h.here h.directory htarget, h.directory _ hnode, hname⟩
    rw [hfind']
    dsimp only
    refine congrArg _ ?_
    rw [discover_eq, discover_eq]
    refine congrArg _ (Table.eq_of_ascending (ascending_sourcePlaces g input directory)
      (ascending_sourcePlaces f input directory) fun place => ?_)
    have hsource {k : Files} (hk : k.WellFormed) {content : ByteArray}
        (hmarks : marks input directory place = true)
        (hnode : k.node? place = some (.file content)) : IsSourcePlace place := by
      have hreached := hk.reached place (hnode ▸ Option.some_ne_none _)
      exact isSourcePlace_of_marks (fun name hname => (hreached.named name hname).1) hmarks
    rw [mem_sourcePlaces, mem_sourcePlaces]
    constructor
    · rintro ⟨hmarks, content, hnode⟩
      exact ⟨hmarks, h.before place content (hsource hg hmarks hnode) hnode⟩
    · rintro ⟨hmarks, content, hnode⟩
      obtain ⟨later, hlater, -⟩ := h.after place content (hsource hf hmarks hnode) hnode
      exact ⟨hmarks, later, hlater⟩

/-- What is found at a place later. -/
theorem found?_again {s : Settings} {changed : Path → Prop} {f g : Files}
    (h : Follows s changed f g) {place : List RawText} {content : ByteArray}
    (hsource : IsSourcePlace place) (hnode : f.node? place = some (.file content)) :
    ∃ later, g.node? place = some (.file later) ∧
      ((found? s place content = none ∧ found? s place later = none) ∨
        ∃ a b, found? s place content = some a ∧ found? s place later = some b ∧
          Again changed a b) := by
  obtain ⟨later, hlater, ⟨hkept, rfl⟩ | ⟨hchanged, hsize, hsize', ⟨outline, houtline⟩, hdigest⟩⟩ :=
    h.after place content hsource hnode
  · refine ⟨later, hlater, ?_⟩
    cases hfound : found? s place later with
    | none => exact .inl ⟨rfl, rfl⟩
    | some a =>
      have hpath := (of_found? hfound).1
      exact .inr ⟨a, a, rfl, rfl, rfl, fun _ => rfl, fun hc => absurd (hpath ▸ hc) hkept⟩
  · refine ⟨later, hlater, .inr ?_⟩
    cases hfound : found? s place content with
    | none =>
      unfold found? at hfound
      rw [if_neg (Nat.not_lt.2 hsize)] at hfound
      dsimp only at hfound
      split at hfound <;> cases hfound
    | some a =>
      obtain ⟨hpath, rfl, -, -⟩ := of_found? hfound
      refine ⟨a, _, rfl, found?_of_ok hsize' houtline, hpath.symm, fun hc => ?_, fun _ => ?_⟩
      · exact absurd (hpath ▸ hchanged) hc
      · exact ⟨rfl, hdigest, outline, houtline⟩

/-- A later scan finds the same files, as they are by then. -/
theorem scan_again {s : Settings} {changed : Path → Prop} {f g : Files} (hf : f.WellFormed)
    (hg : g.WellFormed) (h : Follows s changed f g) {input : Path} {found : Result} {log : Log}
    (hscan : scan s f input = .ok (found, log)) :
    ∃ found' log', scan s g input = .ok (found', log') ∧
      List.Forall₂ (Again changed) found.files found'.files := by
  obtain ⟨paths, hcandidates, hne, hfiles⟩ := scan_eq_ok hscan
  obtain ⟨found', log', hscan', hfiles'⟩ :=
    exists_scan (s := s) (candidates_again hf hg h hcandidates hne) hne
  refine ⟨found', log', hscan', ?_⟩
  obtain ⟨places, raw, rfl, -, hplaces⟩ := exists_places hf hcandidates
  rw [hfiles, hfiles']
  clear hfiles hfiles' hcandidates hscan hscan' hne
  induction places with
  | nil => exact .nil
  | cons place places ih =>
    have hrest := ih fun q hq => hplaces q (.tail _ hq)
    obtain ⟨hsource, content, hfind⟩ := hplaces place (.head _)
    obtain ⟨later, hlater, hfound⟩ :=
      found?_again h hsource (Files.find_eq_ok.1 hfind).2.1
    rw [List.map_cons, List.filterMap_cons, List.filterMap_cons, toOption_inspect hfind,
      toOption_inspect (h.find hfind hlater)]
    rcases hfound with ⟨hnone, hnone'⟩ | ⟨a, b, hsome, hsome', hagain⟩
    · rw [hnone, hnone']
      exact hrest
    · rw [hsome, hsome']
      exact .cons hagain hrest

end Recast.Scan
