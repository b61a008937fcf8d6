/-
  Proofs/Layout/Placement.lean --- every source file has a Go file of its own.

  A file takes the first of its numbered names that is free, and one of them is, because there are
  more of them than there are names taken (`freeFile_spec`).
-/
import Recast.Layout.Placement
import Recast.Proofs.Path
import Recast.Proofs.Text.Numeral

set_option autoImplicit false

namespace Recast.Layout

/-! ## Names of Go files -/

/-- A name that ends as those of Go files do. -/
def IsGoFile (name : String) : Prop := ∃ stem : String, name = stem ++ ".go" ∧ '/' ∉ stem.toList

theorem IsGoFile.getLast? {name : String} (h : IsGoFile name) : name.toList.getLast? = some 'o' := by
  obtain ⟨stem, rfl, -⟩ := h
  rw [String.toList_append, List.getLast?_append]
  rfl

theorem IsGoFile.isName {name : String} (h : IsGoFile name) : Path.IsName name := by
  obtain ⟨stem, rfl, hslash⟩ := h
  have hlast (text : String) (hlength : text.toList.length < 3) : stem ++ ".go" ≠ text := by
    rintro rfl
    have hgo : ".go".toList.length = 3 := by decide
    rw [String.toList_append, List.length_append, hgo] at hlength
    omega
  refine Path.isName_ofString_iff.2
    ⟨hlast "" (by decide), hlast "." (by decide), hlast ".." (by decide), ?_⟩
  rw [String.toList_append]
  intro hmem
  rcases List.mem_append.1 hmem with hmem | hmem
  · exact hslash hmem
  · revert hmem
    decide

theorem isGoFile_withExtension {stem : String} (h : '/' ∉ stem.toList) :
    IsGoFile (withExtension stem) := by
  unfold withExtension
  split
  · refine ⟨stem ++ "_py", by rw [String.append_assoc]; rfl, ?_⟩
    rw [String.toList_append]
    intro hmem
    rcases List.mem_append.1 hmem with hmem | hmem
    · exact h hmem
    · revert hmem
      decide
  · exact ⟨stem, rfl, h⟩

/-- A stem with a number is not taken for a test. -/
theorem withExtension_number (stem : String) (n : Nat) :
    withExtension (stem ++ "_" ++ toString n) = stem ++ "_" ++ toString n ++ ".go" := by
  rw [withExtension, if_neg]
  rw [List.isSuffixOf_iff_suffix]
  rintro ⟨before, hbefore⟩
  obtain ⟨c, hlast, hdigit⟩ := Text.exists_getLast?_append_toString (stem ++ "_") n
  rw [← hbefore, List.getLast?_append] at hlast
  have ht : 't' = c := Option.some.inj hlast
  rw [← ht] at hdigit
  cases hdigit

/-! ## Free names -/

/-- The names that are tried for a stem when some are taken. -/
def tried (taken : Nat) (stem : String) : List String :=
  withExtension stem :: (List.range taken).map fun i =>
    withExtension (stem ++ "_" ++ toString (i + 2))

theorem nodup_tried (taken : Nat) (stem : String) : (tried taken stem).Nodup := by
  refine List.nodup_cons.2 ⟨fun hmem => ?_, ?_⟩
  · obtain ⟨i, -, heq⟩ := List.mem_map.1 hmem
    rw [withExtension_number] at heq
    have hdigits {rest : String} (h : "_" ++ toString (i + 2) = rest) (c : Char)
        (hc : c ∈ rest.toList) : c = '_' ∨ c.isDigit = true := by
      rw [← h, String.toList_append] at hc
      rcases List.mem_append.1 hc with hc | hc
      · exact .inl (List.mem_singleton.1 hc)
      · exact .inr (Text.isDigit_of_mem_toString hc)
    unfold withExtension at heq
    split at heq
    · have hstem : stem ++ "_py.go" = stem ++ "_py" ++ ".go" := by rw [String.append_assoc]; rfl
      rw [hstem, String.append_left_inj, String.append_assoc, String.append_right_inj] at heq
      rcases hdigits heq 'p' (by decide) with hp | hp <;> revert hp <;> decide
    · rw [String.append_left_inj, String.append_assoc] at heq
      have hempty : "_" ++ toString (i + 2) = "" := by
        rw [← String.append_right_inj stem, heq, String.append_empty]
      have hlist := congrArg String.toList hempty
      rw [String.toList_append] at hlist
      cases hlist
  · refine List.pairwise_map.2 (List.nodup_range.imp fun {i j} hne heq => hne ?_)
    rw [withExtension_number, withExtension_number, String.append_left_inj, String.append_right_inj]
      at heq
    exact Nat.add_right_cancel (Text.toString_injective heq)

/-- The file that a candidate gets is one of those that are tried, and it is free. -/
theorem freeFile_spec (taken : List (String × String)) (module stem : String) :
    (freeFile taken module stem).1 ∈ tried taken.length stem ∧
      (module, (freeFile taken module stem).1) ∉ taken := by
  unfold freeFile
  dsimp only
  generalize hall : ((withExtension stem, false) :: (List.range taken.length).map fun i =>
    (withExtension (stem ++ "_" ++ toString (i + 2)), true)) = all
  have htried : all.map (·.1) = tried taken.length stem := by
    rw [← hall, List.map_cons, List.map_map]
    rfl
  cases hfind : List.find? _ all with
  | some found =>
    have hfree := List.find?_some hfind
    have hmem := List.mem_of_find?_eq_some hfind
    refine ⟨htried ▸ List.mem_map_of_mem hmem, fun htaken => ?_⟩
    rw [Option.getD_some] at htaken
    rw [List.contains_eq_mem, decide_eq_true htaken] at hfree
    cases hfree
  | none =>
    -- All names that are tried would be taken, but there is one more of them than that.
    have hsubset : (tried taken.length stem).map (Prod.mk module) ⊆ taken := by
      intro pair hpair
      obtain ⟨name, hname, rfl⟩ := List.mem_map.1 hpair
      rw [← htried] at hname
      obtain ⟨entry, hentry, rfl⟩ := List.mem_map.1 hname
      have hnot := List.find?_eq_none.1 hfind entry hentry
      simpa using hnot
    have hnodup : ((tried taken.length stem).map (Prod.mk module)).Nodup := by
      refine List.pairwise_map.2 ((nodup_tried taken.length stem).imp fun hne heq => hne ?_)
      exact (Prod.mk.inj heq).2
    have hlength := hnodup.length_le_of_subset hsubset
    rw [List.length_map, tried, List.length_cons, List.length_map, List.length_range] at hlength
    omega

theorem isGoFile_of_mem_tried {taken : Nat} {stem name : String} (h : '/' ∉ stem.toList)
    (hname : name ∈ tried taken stem) : IsGoFile name := by
  rcases List.mem_cons.1 hname with rfl | hname
  · exact isGoFile_withExtension h
  · obtain ⟨i, -, rfl⟩ := List.mem_map.1 hname
    refine isGoFile_withExtension ?_
    rw [String.toList_append, String.toList_append]
    intro hmem
    rcases List.mem_append.1 hmem with hmem | hmem
    · rcases List.mem_append.1 hmem with hmem | hmem
      · exact h hmem
      · revert hmem
        decide
    · have hdigit := Text.isDigit_of_mem_toString hmem
      cases hdigit

/-! ## Names without slashes -/

theorem noSlash_trimUnderscores {cs : List Char} (h : '/' ∉ cs) : '/' ∉ trimUnderscores cs := by
  intro hmem
  unfold trimUnderscores Text.dropEnd Text.dropStart at hmem
  have hstart := (List.dropWhile_sublist _).subset (List.mem_reverse.1 hmem)
  exact h ((List.dropWhile_sublist _).subset (List.mem_reverse.1 hstart))

theorem noSlash_goStem (fileName : String) : '/' ∉ (goStem fileName).toList := by
  have hstem : '/' ∉ (Path.mk fileName).stem.toList := by
    unfold Path.stem
    cases hname : (Path.mk fileName).fileName? with
    | none => decide
    | some name =>
      intro hmem
      have hstem := Path.mem_of_mem_cutName (RawText.slash_mem_of_text hmem)
      exact (Path.isName_of_fileName? hname).noSlash hstem
  have htrimmed := noSlash_trimUnderscores hstem
  unfold goStem
  split
  · decide
  · rw [String.toList_ofList]
    exact htrimmed

theorem noSlash_sanitized (name : String) : '/' ∉ (sanitized name).toList := by
  rw [sanitized, String.toList_ofList]
  refine noSlash_trimUnderscores fun hmem => ?_
  obtain ⟨c, -, hc⟩ := List.mem_map.1 hmem
  split at hc
  · next hclass =>
    subst hc
    revert hclass
    decide
  · cases hc

theorem noSlash_intercalate {parts : List String} (h : ∀ part ∈ parts, '/' ∉ part.toList) :
    '/' ∉ ("_".intercalate parts).toList := by
  induction parts with
  | nil => decide
  | cons part parts ih =>
    have hpart := h part (.head _)
    have hparts := ih fun p hp => h p (.tail _ hp)
    cases parts with
    | nil =>
      rw [String.intercalate_singleton]
      exact hpart
    | cons next parts =>
      rw [String.intercalate_cons_cons, String.toList_append, String.toList_append]
      intro hmem
      rcases List.mem_append.1 hmem with hmem | hmem
      · rcases List.mem_append.1 hmem with hmem | hmem
        · exact hpart hmem
        · revert hmem
          decide
      · exact hparts hmem

theorem noSlash_separated {stem : String} {directories : List (List String)}
    (hstem : '/' ∉ stem.toList)
    (hdirectories : ∀ names ∈ directories, ∀ name ∈ names, '/' ∉ name.toList) :
    ∀ name ∈ separated stem directories, '/' ∉ name.toList := by
  have hprefixed (depth : Nat) :
      ∀ name ∈ directories.map fun d => prefixed stem d depth, '/' ∉ name.toList := by
    intro name hname
    obtain ⟨names, hnames, rfl⟩ := List.mem_map.1 hname
    refine noSlash_intercalate fun part hpart => ?_
    rcases List.mem_append.1 hpart with hpart | hpart
    · exact hdirectories names hnames part (List.mem_of_mem_drop hpart)
    · rw [List.mem_singleton.1 hpart]
      exact hstem
  unfold separated
  dsimp only
  split
  · exact hprefixed _
  · exact hprefixed _

theorem noSlash_directoryNames (p : Path) : ∀ name ∈ directoryNames p, '/' ∉ name.toList := by
  intro name hname
  obtain ⟨c, -, hc⟩ := List.mem_filterMap.1 (List.mem_filter.1 hname).1
  split at hc
  · cases hc
    exact noSlash_sanitized _
  · cases hc

theorem noSlash_separate (all : List Candidate) {c : Candidate} (h : '/' ∉ c.stem.toList) :
    '/' ∉ (separate all c).stem.toList := by
  unfold separate
  dsimp only
  split
  · exact h
  · split
    · next name hfind =>
      have hmem := (List.of_mem_zip (List.mem_of_find?_eq_some hfind)).2
      refine noSlash_separated h (fun names hnames => ?_) name hmem
      obtain ⟨m, -, rfl⟩ := List.mem_map.1 hnames
      exact noSlash_directoryNames m.path
    · exact h

/-! ## Placements -/

/-- What candidates get is free, differs from candidate to candidate, and is a Go file. -/
theorem claim_spec {taken : List (String × String)} {candidates : List Candidate}
    (h : ∀ c ∈ candidates, '/' ∉ c.stem.toList) :
    (claim taken candidates).1.length = candidates.length ∧
      ((claim taken candidates).1.map (·.2)).Nodup ∧
      ∀ p ∈ (claim taken candidates).1.map (·.2),
        (p.module, p.fileName) ∉ taken ∧ IsGoFile p.fileName := by
  induction candidates generalizing taken with
  | nil => exact ⟨rfl, List.nodup_nil, fun p hp => absurd hp List.not_mem_nil⟩
  | cons c rest ih =>
    obtain ⟨htried, hfree⟩ := freeFile_spec taken c.module c.stem
    have hfile := isGoFile_of_mem_tried (h c (.head _)) htried
    unfold claim
    generalize freeFile taken c.module c.stem = given at htried hfree hfile
    obtain ⟨file, numbered⟩ := given
    obtain ⟨hlength, hnodup, hrest⟩ := @ih ((c.module, file) :: taken) fun d hd => h d (.tail _ hd)
    dsimp only at hfree hfile ⊢
    refine ⟨?_, ?_, ?_⟩
    · rw [List.length_cons, List.length_cons, hlength]
    · rw [List.map_cons]
      refine List.nodup_cons.2 ⟨fun hmem => ?_, hnodup⟩
      exact (hrest _ hmem).1 (.head _)
    · intro p hp
      rw [List.map_cons] at hp
      rcases List.mem_cons.1 hp with rfl | hp
      · exact ⟨hfree, hfile⟩
      · exact ⟨fun htaken => (hrest p hp).1 (.tail _ htaken), (hrest p hp).2⟩

theorem module_separate (all : List Candidate) (c : Candidate) :
    (separate all c).module = c.module := by
  unfold separate
  dsimp only
  split
  · rfl
  · split <;> rfl

theorem module_of_mem_claim {taken : List (String × String)} {candidates : List Candidate}
    {p : Nat × Placement} (h : p ∈ (claim taken candidates).1) :
    ∃ c ∈ candidates, p.2.module = c.module := by
  induction candidates generalizing taken with
  | nil => cases h
  | cons c rest ih =>
    rcases List.mem_cons.1 h with rfl | h
    · exact ⟨c, .head _, rfl⟩
    · obtain ⟨d, hd, hp⟩ := ih h
      exact ⟨d, .tail _ hd, hp⟩

/-- The module of a placement is one that the rules give. -/
theorem exists_classify {s : Settings} {sources : List Path} {p : Placement}
    (h : p ∈ (place s sources).1) : ∃ fileName, p.module = s.classify fileName := by
  obtain ⟨claimed, hclaimed, rfl⟩ := List.mem_map.1 h
  obtain ⟨c, hc, hmodule⟩ := module_of_mem_claim (List.mem_mergeSort.1 hclaimed)
  obtain ⟨d, hd, rfl⟩ := List.mem_map.1 (List.mem_mergeSort.1 hc)
  rw [plainCandidates, List.mem_mapIdx] at hd
  obtain ⟨i, hi, heq⟩ := hd
  refine ⟨sources[i].fileName, ?_⟩
  rw [hmodule, module_separate, ← heq]

/-- What is true of all modules that settings name is true of those of placements. -/
theorem forall_module {P : String → Prop} {s : Settings} (hfallback : P s.defaultModule)
    (hrules : ∀ r ∈ s.rules, P r.module) {sources : List Path} {p : Placement}
    (hp : p ∈ (place s sources).1) : P p.module := by
  obtain ⟨fileName, hmodule⟩ := exists_classify hp
  rw [hmodule]
  unfold Settings.classify
  split
  · next r hfind => exact hrules r (List.mem_of_find?_eq_some hfind)
  · exact hfallback

/-- Settings that name Go packages only. -/
structure Settings.NamesPackages (s : Settings) : Prop where
  fallback : isPackageName s.defaultModule = true
  rules : ∀ r ∈ s.rules, isPackageName r.module = true

theorem Settings.NamesPackages.classify {s : Settings} (h : s.NamesPackages) (fileName : String) :
    isPackageName (s.classify fileName) = true := by
  unfold Settings.classify
  split
  · next r hfind => exact h.rules r (List.mem_of_find?_eq_some hfind)
  · exact h.fallback

/-- Every source file gets a Go file of its own. -/
theorem place_spec (s : Settings) (sources : List Path) :
    (place s sources).1.length = sources.length ∧ (place s sources).1.Nodup ∧
      ∀ p ∈ (place s sources).1, IsGoFile p.fileName := by
  have hspec (candidates : List Candidate) (hlength : candidates.length = sources.length)
      (hstems : ∀ c ∈ candidates, '/' ∉ c.stem.toList) :
      let placed := ((claim [] candidates).1.mergeSort fun a b => a.1 ≤ b.1).map (·.2)
      placed.length = sources.length ∧ placed.Nodup ∧ ∀ p ∈ placed, IsGoFile p.fileName := by
    intro placed
    obtain ⟨hclaimed, hnodup, hfiles⟩ := @claim_spec [] candidates hstems
    have hperm : placed.Perm ((claim [] candidates).1.map (·.2)) := (List.mergeSort_perm _ _).map _
    refine ⟨?_, hperm.nodup_iff.2 hnodup, fun p hp => (hfiles p (hperm.subset hp)).2⟩
    rw [hperm.length_eq, List.length_map, hclaimed, hlength]
  refine hspec _ ?_ fun c hc => ?_
  · rw [List.length_mergeSort, List.length_map, plainCandidates, List.length_mapIdx]
  · rw [List.mem_mergeSort] at hc
    obtain ⟨d, hd, rfl⟩ := List.mem_map.1 hc
    rw [plainCandidates, List.mem_mapIdx] at hd
    obtain ⟨i, hi, heq⟩ := hd
    have hstem : d.stem = goStem sources[i].fileName := by rw [← heq]
    refine noSlash_separate _ ?_
    rw [hstem]
    exact noSlash_goStem _

end Recast.Layout
