/-
  Proofs/Layout/Targets.lean --- which file each source gets.

  The search for a free file ends (`exists_firstFree`), and what a source gets is found at its own
  position (`getElem?_place`).  So there is one placement for each source, and no two are the same
  (`place_separates`).  A source that shares its plain target with no other one gets it, unless one
  that goes before it is given the same file as a numbered one (`place_owned`).
-/
import Mathlib.Data.List.Forall2
import Mathlib.Data.List.Nodup
import Recast.Proofs.Layout.Outer
import Recast.Proofs.Layout.Placement

set_option autoImplicit false

namespace Recast.Layout

/-! ## The search for a free file -/

/-- The file that is tried for a stem after `n` others. -/
def numbered (stem : String) : Nat → String
  | 0 => withExtension stem
  | n + 1 => withExtension (stem ++ "_" ++ toString (n + 2))

/-- After how many files for a stem the first free one comes. -/
structure FirstFree (taken : List (String × String)) (module stem : String) (n : Nat) : Prop where
  free : (module, numbered stem n) ∉ taken
  before : ∀ m < n, (module, numbered stem m) ∈ taken

/-- The search goes through the numbered files in their order. -/
theorem freeFile_eq (taken : List (String × String)) (module stem : String) :
    freeFile taken module stem =
      (((List.range (taken.length + 1)).find? fun n => !taken.contains (module, numbered stem n)).map
        fun n => (numbered stem n, n != 0)).getD (withExtension stem, false) := by
  have hfiles : (withExtension stem, false) :: ((List.range taken.length).map fun i =>
      (withExtension (stem ++ "_" ++ toString (i + 2)), true)) =
        (List.range (taken.length + 1)).map fun n => (numbered stem n, n != 0) := by
    rw [List.range_succ_eq_map, List.map_cons, List.map_map]
    rfl
  unfold freeFile
  dsimp only
  rw [hfiles, List.find?_map]
  rfl

/-- However many files are taken, the search for a free one ends, and it gives the first one. -/
theorem exists_firstFree (taken : List (String × String)) (module stem : String) :
    ∃ n ≤ taken.length, FirstFree taken module stem n ∧
      freeFile taken module stem = (numbered stem n, n != 0) := by
  have hfree := (freeFile_spec taken module stem).2
  rw [freeFile_eq] at hfree ⊢
  cases hfind : (List.range (taken.length + 1)).find? fun n =>
      !taken.contains (module, numbered stem n) with
  | some n =>
    obtain ⟨hn, hmem, hbefore⟩ := List.find?_range_eq_some.1 hfind
    refine ⟨n, Nat.lt_succ_iff.1 (List.mem_range.1 hmem), ⟨by simpa using hn, fun m hm => ?_⟩, rfl⟩
    simpa using hbefore m hm
  | none =>
    -- Not even the plain file would be free.
    have hplain := List.find?_eq_none.1 hfind 0 (List.mem_range.2 (Nat.succ_pos _))
    rw [hfind] at hfree
    exact absurd (by simpa [numbered] using hplain) hfree

/-- A plain file that is free is the one to take. -/
theorem freeFile_of_free {taken : List (String × String)} {module stem : String}
    (h : (module, withExtension stem) ∉ taken) :
    (freeFile taken module stem).1 = withExtension stem := by
  obtain ⟨n, -, hfirst, hfile⟩ := exists_firstFree taken module stem
  rw [hfile]
  cases n with
  | zero => rfl
  | succ n => exact absurd (hfirst.before 0 (Nat.succ_pos n)) h

/-- No file is taken for a test. -/
theorem not_test_withExtension (stem : String) :
    ¬"_test.go".toList <:+ (withExtension stem).toList := by
  unfold withExtension
  split
  · rw [String.toList_append]
    intro h
    have hpy : "_py.go".toList <:+ stem.toList ++ "_py.go".toList := List.suffix_append _ _
    exact absurd (List.suffix_of_suffix_length_le hpy h (by decide)) (by decide)
  · next hnot =>
    rw [List.isSuffixOf_iff_suffix] at hnot
    rw [String.toList_append]
    rintro ⟨before, h⟩
    have hgo : "_test.go".toList = "_test".toList ++ ".go".toList := by decide
    rw [hgo, ← List.append_assoc] at h
    exact hnot ⟨before, List.append_cancel_right h⟩

theorem not_test_numbered (stem : String) (n : Nat) :
    ¬"_test.go".toList <:+ (numbered stem n).toList := by
  cases n <;> exact not_test_withExtension _

/-! ## Names of colliding files -/

theorem exists_depth_separated (stem : String) (directories : List (List String)) :
    ∃ depth, 1 ≤ depth ∧
      separated stem directories = directories.map fun d => prefixed stem d depth := by
  unfold separated
  dsimp only
  split
  · exact ⟨_, Nat.le_add_left 1 _, rfl⟩
  · exact ⟨_, Nat.le_max_left 1 _, rfl⟩

theorem prefixed_zero (stem : String) (directories : List String) :
    prefixed stem directories 0 = stem := by
  rw [prefixed, Nat.sub_zero, List.drop_length, List.nil_append, String.intercalate_singleton]

/-- A stem behind directory names is another one. -/
theorem prefixed_eq_iff {stem : String} {directories : List String} {depth : Nat} (h : 1 ≤ depth) :
    prefixed stem directories depth = stem ↔ directories = [] := by
  have hlength (names : List String) :
      stem.toList.length ≤ ("_".intercalate (names ++ [stem])).toList.length := by
    induction names with
    | nil => exact Nat.le_of_eq (by rw [List.nil_append, String.intercalate_singleton])
    | cons name names ih =>
      obtain ⟨next, rest, heq⟩ := List.exists_cons_of_ne_nil
        (List.append_ne_nil_of_right_ne_nil names (List.cons_ne_nil stem []))
      rw [List.cons_append, heq, String.intercalate_cons_cons, ← heq, String.toList_append,
        List.length_append]
      exact Nat.le_trans ih (Nat.le_add_left _ _)
  constructor
  · intro heq
    by_contra hne
    have hpos := List.length_pos_of_ne_nil hne
    cases hdrop : directories.drop (directories.length - depth) with
    | nil =>
      rw [List.drop_eq_nil_iff] at hdrop
      omega
    | cons name names =>
      obtain ⟨next, rest, hcons⟩ := List.exists_cons_of_ne_nil
        (List.append_ne_nil_of_right_ne_nil names (List.cons_ne_nil stem []))
      have hlong := congrArg (fun text : String => text.toList.length) heq
      rw [prefixed, hdrop, List.cons_append, hcons, String.intercalate_cons_cons, ← hcons] at hlong
      simp only [String.toList_append, List.length_append] at hlong
      have hone : "_".toList.length = 1 := by decide
      have := hlength names
      omega
  · rintro rfl
    rw [prefixed, List.drop_nil, List.nil_append, String.intercalate_singleton]

/-! ## Candidates -/

/-- A source with its plain target. -/
def plainCandidate (s : Settings) (i : Nat) (p : Path) : Candidate :=
  ⟨i, p, s.classify p.fileName, goStem p.fileName, false⟩

section

variable (s : Settings) (i : Nat) (p : Path)

theorem index_plainCandidate : (plainCandidate s i p).index = i := rfl

theorem path_plainCandidate : (plainCandidate s i p).path = p := rfl

theorem module_plainCandidate : (plainCandidate s i p).module = s.classify p.fileName := by
  rw [plainCandidate]

theorem stem_plainCandidate : (plainCandidate s i p).stem = goStem p.fileName := by
  rw [plainCandidate]

end

theorem getElem?_plainCandidates (s : Settings) (sources : List Path) (i : Nat) :
    (plainCandidates s sources)[i]? = sources[i]?.map (plainCandidate s i) := List.getElem?_mapIdx

theorem mem_plainCandidates {s : Settings} {sources : List Path} {c : Candidate} :
    c ∈ plainCandidates s sources ↔ ∃ i p, sources[i]? = some p ∧ c = plainCandidate s i p := by
  rw [List.mem_iff_getElem?]
  refine exists_congr fun i => ?_
  rw [getElem?_plainCandidates, Option.map_eq_some_iff]
  exact exists_congr fun p => and_congr_right fun _ => eq_comm

theorem index_plainCandidates (s : Settings) (sources : List Path) :
    (plainCandidates s sources).map (·.index) = List.range sources.length := by
  refine List.ext_getElem? fun i => ?_
  rw [List.getElem?_map, getElem?_plainCandidates]
  by_cases h : i < sources.length
  · rw [List.getElem?_eq_getElem h, List.getElem?_range h]
    rfl
  · rw [List.getElem?_eq_none (Nat.le_of_not_lt h), List.getElem?_eq_none (by simpa using h)]
    rfl

theorem find?_index {all : List Candidate} (hnodup : (all.map (·.index)).Nodup) {c : Candidate}
    (hc : c ∈ all) : all.find? (fun m => m.index = c.index) = some c := by
  cases hfind : all.find? fun m => m.index = c.index with
  | none => simpa using List.find?_eq_none.1 hfind c hc
  | some m =>
    have hindex : m.index = c.index := by simpa using List.find?_some hfind
    rw [List.inj_on_of_nodup_map hnodup (List.mem_of_find?_eq_some hfind) hc hindex]

/-- A candidate that is told apart from others keeps everything but its stem. -/
theorem separate_cases {all : List Candidate} (hnodup : (all.map (·.index)).Nodup) {c : Candidate}
    (hc : c ∈ all) :
    (all.filter c.collides).length ≤ 1 ∧ separate all c = c ∨
      1 < (all.filter c.collides).length ∧ ∃ depth, 1 ≤ depth ∧
        separate all c = { c with
          stem := prefixed c.stem (directoryNames c.path) depth
          renamed := prefixed c.stem (directoryNames c.path) depth != c.stem } := by
  rw [separate_eq]
  split
  · next halone => exact .inl ⟨halone, rfl⟩
  · next halone =>
    refine .inr ⟨Nat.lt_of_not_le halone, ?_⟩
    obtain ⟨depth, hpositive, hsep⟩ := exists_depth_separated c.stem
      ((all.filter c.collides).map fun m => directoryNames m.path)
    refine ⟨depth, hpositive, ?_⟩
    have hmem : c ∈ all.filter c.collides :=
      List.mem_filter.2 ⟨hc, by rw [Candidate.collides, beq_self_eq_true, beq_self_eq_true]; rfl⟩
    have hfind := find?_index ((List.filter_sublist.map _).nodup hnodup) hmem
    rw [hsep, List.map_map, ← List.map_prod_left_eq_zip, List.find?_map]
    change (Option.map _ ((all.filter c.collides).find? fun m => m.index = c.index)).elim _ _ = _
    rw [hfind]
    rfl

/-- The order in which names are given is a total one. -/
theorem before_trans {a b c : Candidate} (h : a.before b = true) (h' : b.before c = true) :
    a.before c = true := by
  unfold Candidate.before at *
  cases ha : a.renamed <;> cases hb : b.renamed <;> cases hc : c.renamed <;>
    simp_all <;> exact Path.le_trans h h'

theorem before_total (a b : Candidate) : (a.before b || b.before a) = true := by
  unfold Candidate.before
  have htotal := Path.le_total a.path b.path
  cases ha : a.renamed <;> cases hb : b.renamed <;> simp_all

/-- The sources in the order in which they get their files. -/
def queue (s : Settings) (sources : List Path) : List Candidate :=
  ((plainCandidates s sources).map (separate (plainCandidates s sources))).mergeSort
    Candidate.before

theorem pairwise_queue (s : Settings) (sources : List Path) :
    (queue s sources).Pairwise fun a b => a.before b = true :=
  @List.pairwise_mergeSort _ Candidate.before (fun _ _ _ => before_trans) before_total _

theorem nodup_index (s : Settings) (sources : List Path) :
    ((plainCandidates s sources).map (·.index)).Nodup := by
  rw [index_plainCandidates]
  exact List.nodup_range

theorem index_separate {s : Settings} {sources : List Path} {c : Candidate}
    (hc : c ∈ plainCandidates s sources) :
    (separate (plainCandidates s sources) c).index = c.index := by
  rcases separate_cases (nodup_index s sources) hc with ⟨-, h⟩ | ⟨-, _, -, h⟩ <;> rw [h]

theorem index_queue (s : Settings) (sources : List Path) :
    ((queue s sources).map (·.index)).Perm (List.range sources.length) := by
  refine ((List.mergeSort_perm _ _).map _).trans (.of_eq ?_)
  rw [List.map_map, ← index_plainCandidates s]
  exact List.map_congr_left fun c hc => index_separate hc

theorem mem_queue {s : Settings} {sources : List Path} {c : Candidate} :
    c ∈ queue s sources ↔ ∃ i p, sources[i]? = some p ∧
      c = separate (plainCandidates s sources) (plainCandidate s i p) := by
  rw [queue, List.mem_mergeSort, List.mem_map]
  constructor
  · rintro ⟨d, hd, rfl⟩
    obtain ⟨i, p, hp, rfl⟩ := mem_plainCandidates.1 hd
    exact ⟨i, p, hp, rfl⟩
  · rintro ⟨i, p, hp, rfl⟩
    exact ⟨plainCandidate s i p, mem_plainCandidates.2 ⟨i, p, hp, rfl⟩, rfl⟩

/-! ## Claims -/

/-- What is taken once a placement is given. -/
def Placement.pair (p : Placement) : String × String := (p.module, p.fileName)

theorem Placement.eq_of_pair {p q : Placement} (h : p.pair = q.pair) : p = q := by
  obtain ⟨module, file⟩ := p
  obtain ⟨module', file'⟩ := q
  obtain ⟨rfl, rfl⟩ := Prod.mk.inj h
  rfl

theorem claim_cons (taken : List (String × String)) (c : Candidate) (rest : List Candidate) :
    (claim taken (c :: rest)).1 =
      (c.index, ⟨c.module, (freeFile taken c.module c.stem).1⟩) ::
        (claim ((c.module, (freeFile taken c.module c.stem).1) :: taken) rest).1 := rfl

/-- Those that come later find taken what was given before. -/
theorem claim_append (taken : List (String × String)) (cs ds : List Candidate) :
    (claim taken (cs ++ ds)).1 = (claim taken cs).1 ++
      (claim (((claim taken cs).1.map (·.2.pair)).reverse ++ taken) ds).1 := by
  induction cs generalizing taken with
  | nil => rfl
  | cons c cs ih =>
    rw [List.cons_append, claim_cons, claim_cons, ih, List.map_cons, List.reverse_cons,
      List.append_assoc]
    rfl

theorem index_claim (taken : List (String × String)) (cs : List Candidate) :
    (claim taken cs).1.map (·.1) = cs.map (·.index) := by
  induction cs generalizing taken with
  | nil => rfl
  | cons c cs ih => rw [claim_cons, List.map_cons, List.map_cons, ih]

/-- What a candidate is given: a file of its module, plain or numbered. -/
theorem exists_of_mem_claim {taken : List (String × String)} {cs : List Candidate}
    {e : Nat × Placement} (h : e ∈ (claim taken cs).1) :
    ∃ c ∈ cs, e.1 = c.index ∧ e.2.module = c.module ∧ ∃ n, e.2.fileName = numbered c.stem n := by
  induction cs generalizing taken with
  | nil => cases h
  | cons c cs ih =>
    rw [claim_cons] at h
    rcases List.mem_cons.1 h with rfl | h
    · obtain ⟨n, -, -, hfile⟩ := exists_firstFree taken c.module c.stem
      exact ⟨c, .head _, rfl, rfl, n, by rw [hfile]⟩
    · obtain ⟨d, hd, hentry⟩ := ih h
      exact ⟨d, .tail _ hd, hentry⟩

/-- Candidates with plain targets of their own are given them. -/
theorem claim_of_nodup {taken : List (String × String)} {cs : List Candidate}
    (hnodup : (cs.map fun c => (c.module, withExtension c.stem)).Nodup)
    (hfree : ∀ c ∈ cs, (c.module, withExtension c.stem) ∉ taken) :
    (claim taken cs).1.map (·.2.pair) = cs.map fun c => (c.module, withExtension c.stem) := by
  induction cs generalizing taken with
  | nil => rfl
  | cons c cs ih =>
    have hfile := freeFile_of_free (hfree c (.head _))
    rw [List.map_cons, List.nodup_cons] at hnodup
    rw [claim_cons, hfile, List.map_cons, List.map_cons, ih hnodup.2]
    · rfl
    · intro d hd htaken
      rcases List.mem_cons.1 htaken with heq | htaken
      · exact hnodup.1 (List.mem_map.2 ⟨d, hd, heq⟩)
      · exact hfree d (.tail _ hd) htaken

/-! ## Placements -/

section Places

variable {s : Settings} {sources : List Path}

/-- The entries of the candidates, in the order of the sources. -/
theorem index_sorted (s : Settings) (sources : List Path) :
    ((claim [] (queue s sources)).1.mergeSort fun a b => a.1 ≤ b.1).map (·.1) =
      List.range sources.length := by
  have hsorted := @List.pairwise_mergeSort (Nat × Placement) (fun a b => a.1 ≤ b.1)
    (fun _ _ _ h h' => decide_eq_true (Nat.le_trans (of_decide_eq_true h) (of_decide_eq_true h')))
    (fun a b => by simpa using Nat.le_total a.1 b.1) (claim [] (queue s sources)).1
  refine List.Perm.eq_of_pairwise (fun a b _ _ => Nat.le_antisymm) (List.pairwise_map.2 ?_)
    (List.pairwise_lt_range.imp Nat.le_of_lt) ?_
  · exact hsorted.imp of_decide_eq_true
  · refine ((List.mergeSort_perm _ _).map _).trans ?_
    rw [index_claim]
    exact index_queue s sources

/-- What a source gets stands at its own position. -/
theorem getElem?_place {i : Nat} {p : Placement} :
    (place s sources).1[i]? = some p ↔ (i, p) ∈ (claim [] (queue s sources)).1 := by
  have hindex := index_sorted s sources
  have hplace : (place s sources).1 =
      ((claim [] (queue s sources)).1.mergeSort fun a b => a.1 ≤ b.1).map (·.2) := rfl
  have hmem (e : Nat × Placement) :
      e ∈ (claim [] (queue s sources)).1.mergeSort (fun a b => a.1 ≤ b.1) ↔
        e ∈ (claim [] (queue s sources)).1 := List.mem_mergeSort
  rw [hplace, ← hmem]
  generalize (claim [] (queue s sources)).1.mergeSort (fun a b => a.1 ≤ b.1) = entries at hindex
  have hkey {j : Nat} {e : Nat × Placement} (h : entries[j]? = some e) : e.1 = j := by
    have hj : (entries.map (·.1))[j]? = some e.1 := by rw [List.getElem?_map, h]; rfl
    rw [hindex] at hj
    obtain ⟨hlt, heq⟩ := List.getElem?_eq_some_iff.1 hj
    rw [List.getElem_range] at heq
    exact heq.symm
  rw [List.getElem?_map, Option.map_eq_some_iff]
  constructor
  · rintro ⟨e, he, rfl⟩
    cases hkey he
    exact List.mem_of_getElem? he
  · intro h
    obtain ⟨j, hj⟩ := List.mem_iff_getElem?.1 h
    cases hkey hj
    exact ⟨_, hj, rfl⟩

/-- What a source gets is named after it. -/
theorem exists_of_getElem?_place {i : Nat} {p : Path} {placed : Placement}
    (hi : sources[i]? = some p) (h : (place s sources).1[i]? = some placed) :
    placed.module = s.classify p.fileName ∧
      ∃ depth n, placed.fileName = numbered (prefixed (goStem p.fileName) (directoryNames p) depth) n := by
  obtain ⟨c, hc, hindex, hmodule, n, hfile⟩ := exists_of_mem_claim (getElem?_place.1 h)
  obtain ⟨j, q, hj, rfl⟩ := mem_queue.1 hc
  have hplain := mem_plainCandidates.2 ⟨j, q, hj, @rfl _ (plainCandidate s j q)⟩
  rw [index_separate hplain] at hindex
  have hij : i = j := hindex
  subst hij
  have hpq : p = q := Option.some.inj (hi.symm.trans hj)
  subst hpq
  rw [module_separate] at hmodule
  refine ⟨hmodule, ?_⟩
  rcases separate_cases (nodup_index s sources) hplain with ⟨-, hstem⟩ | ⟨-, depth, -, hstem⟩
  · exact ⟨0, n, by rw [prefixed_zero, hfile, hstem, stem_plainCandidate]⟩
  · exact ⟨depth, n, by rw [hfile, hstem, stem_plainCandidate, path_plainCandidate]⟩

/-- There is one placement for each source, in the order of the sources, in the module that the rules
give for its name.  No two are the same and none is taken for a test, and every search for a free file
on the way there ends with the first one. -/
theorem place_separates (s : Settings) (sources : List Path) :
    List.Forall₂ (fun p placed => placed.module = s.classify p.fileName ∧ ∃ depth n,
      placed.fileName = numbered (prefixed (goStem p.fileName) (directoryNames p) depth) n)
        sources (place s sources).1 ∧
      (place s sources).1.Nodup ∧
      (∀ placed ∈ (place s sources).1, ¬"_test.go".toList <:+ placed.fileName.toList) ∧
      ∀ taken module stem, ∃ n ≤ taken.length, FirstFree taken module stem n ∧
        (freeFile taken module stem).1 = numbered stem n := by
  obtain ⟨hlength, hnodup, -⟩ := place_spec s sources
  have heach : List.Forall₂ (fun p placed => placed.module = s.classify p.fileName ∧ ∃ depth n,
      placed.fileName = numbered (prefixed (goStem p.fileName) (directoryNames p) depth) n)
        sources (place s sources).1 := by
    refine List.forall₂_iff_get.2 ⟨hlength.symm, fun i hi hi' => ?_⟩
    exact exists_of_getElem?_place (List.getElem?_eq_getElem hi) (List.getElem?_eq_getElem hi')
  refine ⟨heach, hnodup, fun placed hplaced => ?_, fun taken module stem => ?_⟩
  · obtain ⟨i, hi⟩ := List.mem_iff_getElem?.1 hplaced
    obtain ⟨hlt, -⟩ := List.getElem?_eq_some_iff.1 hi
    obtain ⟨-, depth, n, hfile⟩ := exists_of_getElem?_place
      (List.getElem?_eq_getElem (hlength ▸ hlt)) hi
    rw [hfile]
    exact not_test_numbered _ n
  · obtain ⟨n, hn, hfirst, hfile⟩ := exists_firstFree taken module stem
    exact ⟨n, hn, hfirst, by rw [hfile]⟩

/-! ## Owned targets -/

/-- Where a source goes by its name alone. -/
def plainTarget (s : Settings) (p : Path) : Placement :=
  ⟨s.classify p.fileName, goFileName p.fileName⟩

/-- Whether no other source has the same stem in the same module. -/
def Alone (s : Settings) (sources : List Path) (i : Nat) (p : Path) : Prop :=
  ∀ j q, sources[j]? = some q → s.classify q.fileName = s.classify p.fileName →
    goStem q.fileName = goStem p.fileName → j = i

/-- Whether a source keeps its stem: it is alone with it, or it has no directory names that could
tell it apart. -/
def KeepsStem (s : Settings) (sources : List Path) (i : Nat) (p : Path) : Prop :=
  Alone s sources i p ∨ directoryNames p = []

theorem pair_plainTarget (i : Nat) (p : Path) :
    ((plainCandidate s i p).module, withExtension (plainCandidate s i p).stem) =
      (plainTarget s p).pair := by
  rw [module_plainCandidate, stem_plainCandidate, Placement.pair, plainTarget, goFileName]

theorem collides_plainCandidate {i j : Nat} {p q : Path} :
    (plainCandidate s i p).collides (plainCandidate s j q) = true ↔
      s.classify q.fileName = s.classify p.fileName ∧ goStem q.fileName = goStem p.fileName := by
  rw [Candidate.collides, Bool.and_eq_true, beq_iff_eq, beq_iff_eq, plainCandidate, plainCandidate,
    eq_comm, @eq_comm _ (goStem _)]

theorem length_group_le_one {i : Nat} {p : Path} (hi : sources[i]? = some p) :
    ((plainCandidates s sources).filter (plainCandidate s i p).collides).length ≤ 1 ↔
      Alone s sources i p := by
  have hmem {c : Candidate} :
      c ∈ (plainCandidates s sources).filter (plainCandidate s i p).collides ↔
        ∃ j q, sources[j]? = some q ∧ c = plainCandidate s j q ∧
          s.classify q.fileName = s.classify p.fileName ∧ goStem q.fileName = goStem p.fileName := by
    rw [List.mem_filter, mem_plainCandidates]
    constructor
    · rintro ⟨⟨j, q, hj, rfl⟩, hcollides⟩
      exact ⟨j, q, hj, rfl, collides_plainCandidate.1 hcollides⟩
    · rintro ⟨j, q, hj, rfl, hsame⟩
      exact ⟨⟨j, q, hj, rfl⟩, collides_plainCandidate.2 hsame⟩
  have hnodup := (List.filter_sublist (p := (plainCandidate s i p).collides)).nodup
    (List.Nodup.of_map _ (nodup_index s sources))
  generalize (plainCandidates s sources).filter (plainCandidate s i p).collides = group at hmem hnodup
  constructor
  · intro hlength j q hj hmodule hstem
    have hc := hmem.2 ⟨i, p, hi, rfl, rfl, rfl⟩
    have hd := hmem.2 ⟨j, q, hj, rfl, hmodule, hstem⟩
    match group, hlength with
    | [only], _ =>
      have heq := (List.mem_singleton.1 hd).trans (List.mem_singleton.1 hc).symm
      exact congrArg Candidate.index heq
  · intro halone
    have hall : ∀ c ∈ group, c = plainCandidate s i p := by
      intro c hc
      obtain ⟨j, q, hj, rfl, hmodule, hstem⟩ := hmem.1 hc
      obtain rfl := halone j q hj hmodule hstem
      rw [Option.some.inj (hi.symm.trans hj)]
    match group, hnodup, hall with
    | [], _, _ => exact Nat.zero_le 1
    | [_], _, _ => exact Nat.le_refl 1
    | a :: b :: _, hnodup, hall =>
      have heq := (hall a (.head _)).trans (hall b (.tail _ (.head _))).symm
      exact absurd (heq ▸ .head _) (List.nodup_cons.1 hnodup).1

theorem separate_of_alone {i : Nat} {p : Path} (hi : sources[i]? = some p)
    (h : Alone s sources i p) :
    separate (plainCandidates s sources) (plainCandidate s i p) = plainCandidate s i p := by
  rw [separate_eq, if_pos ((length_group_le_one hi).2 h)]

/-- A source that keeps its stem goes as it is; any other one is renamed. -/
theorem separate_plainCandidate {i : Nat} {p : Path} (hi : sources[i]? = some p) :
    KeepsStem s sources i p ∧
        separate (plainCandidates s sources) (plainCandidate s i p) = plainCandidate s i p ∨
      (separate (plainCandidates s sources) (plainCandidate s i p)).renamed = true := by
  have hplain := mem_plainCandidates.2 ⟨i, p, hi, @rfl _ (plainCandidate s i p)⟩
  rcases separate_cases (nodup_index s sources) hplain with ⟨hone, hsame⟩ | ⟨-, depth, hpos, hstem⟩
  · exact .inl ⟨.inl ((length_group_le_one hi).1 hone), hsame⟩
  · rw [stem_plainCandidate, path_plainCandidate] at hstem
    by_cases hnone : directoryNames p = []
    · have hprefixed := (@prefixed_eq_iff (goStem p.fileName) _ _ hpos).2 hnone
      rw [hprefixed, bne_self_eq_false] at hstem
      exact .inl ⟨.inr hnone, hstem.trans (by rw [plainCandidate])⟩
    · refine .inr ?_
      rw [hstem]
      dsimp only
      exact bne_iff_ne.2 (mt (prefixed_eq_iff hpos).1 hnone)

/-- Whether a source goes before another one: it keeps its stem, and its path is not the later one. -/
structure Precedes (s : Settings) (sources : List Path) (j i : Nat) : Prop where
  ne : j ≠ i
  keeps : ∃ q, sources[j]? = some q ∧ KeepsStem s sources j q ∧
    ∃ p, sources[i]? = some p ∧ q.le p = true

/-- In front of a source that keeps its stem stand only such sources that go before it. -/
theorem exists_queue_eq {i : Nat} {p : Path} (hi : sources[i]? = some p)
    (hkeeps : separate (plainCandidates s sources) (plainCandidate s i p) = plainCandidate s i p) :
    ∃ first rest, queue s sources = first ++ plainCandidate s i p :: rest ∧
      ∀ d ∈ first, ∃ j q, sources[j]? = some q ∧ d = plainCandidate s j q ∧
        Precedes s sources j i := by
  have hmem : plainCandidate s i p ∈ queue s sources := mem_queue.2 ⟨i, p, hi, hkeeps.symm⟩
  obtain ⟨first, rest, hqueue⟩ := List.append_of_mem hmem
  refine ⟨first, rest, hqueue, fun d hd => ?_⟩
  have hpairwise := pairwise_queue s sources
  have hindex := (index_queue s sources).nodup_iff.2 List.nodup_range
  rw [hqueue] at hpairwise hindex
  have hbefore := (List.pairwise_append.1 hpairwise).2.2 d hd _ (.head _)
  rw [List.map_append, List.nodup_append] at hindex
  have hne := hindex.2.2 _ (List.mem_map_of_mem hd) _ (List.mem_map_of_mem (.head _))
  have hqueued : d ∈ queue s sources := hqueue ▸ List.mem_append_left _ hd
  obtain ⟨j, q, hj, rfl⟩ := mem_queue.1 hqueued
  rcases separate_plainCandidate hj with ⟨hstays, hsame⟩ | hrenamed
  · rw [hsame] at hbefore hne ⊢
    exact ⟨j, q, hj, rfl, hne, q, hj, hstays, p, hi, hbefore⟩
  · rw [Candidate.before, hrenamed] at hbefore
    exact Bool.noConfusion hbefore

/-- A source is given the first free one of its files once those in front of it have been given
theirs. -/
theorem getElem?_place_of_queue {i : Nat} {p : Path} {first rest : List Candidate}
    (h : queue s sources = first ++ plainCandidate s i p :: rest) :
    (place s sources).1[i]? = some ⟨s.classify p.fileName,
      (freeFile ((claim [] first).1.map (·.2.pair)).reverse (s.classify p.fileName)
        (goStem p.fileName)).1⟩ := by
  rw [getElem?_place, h, claim_append, claim_cons, List.append_nil, index_plainCandidate,
    module_plainCandidate, stem_plainCandidate]
  exact List.mem_append_right _ (.head _)

/-- A source that shares its plain target with no other one is placed there exactly if no source that
goes before it is given that file, which happens only if two of those share their plain targets. -/
theorem place_owned {i : Nat} {p : Path} (hi : sources[i]? = some p)
    (own : ∀ j q, sources[j]? = some q → plainTarget s q = plainTarget s p → j = i) :
    ((place s sources).1[i]? = some (plainTarget s p) ↔
      ∀ j, Precedes s sources j i → (place s sources).1[j]? ≠ some (plainTarget s p)) ∧
    ((∀ j k q r, Precedes s sources j i → Precedes s sources k i → sources[j]? = some q →
        sources[k]? = some r → plainTarget s q = plainTarget s r → j = k) →
      (place s sources).1[i]? = some (plainTarget s p)) := by
  have halone : Alone s sources i p := fun j q hj hmodule hstem =>
    own j q hj (by rw [plainTarget, plainTarget, goFileName, goFileName, hmodule, hstem])
  obtain ⟨first, rest, hqueue, hfirst⟩ := exists_queue_eq hi (separate_of_alone hi halone)
  have hplace := getElem?_place_of_queue hqueue
  -- It gets its plain target if that is still free when its turn comes.
  have hfree (h : (plainTarget s p).pair ∉ (claim [] first).1.map (·.2.pair)) :
      (place s sources).1[i]? = some (plainTarget s p) := by
    rw [← pair_plainTarget i, module_plainCandidate, stem_plainCandidate, ← List.mem_reverse] at h
    rw [hplace, freeFile_of_free h, plainTarget, goFileName]
  refine ⟨⟨fun h j hj hother => hj.ne ?_, fun h => hfree fun htaken => ?_⟩, fun h => hfree ?_⟩
  · obtain ⟨hlt, -⟩ := List.getElem?_eq_some_iff.1 hother
    exact (List.getElem?_inj hlt (place_spec s sources).2.1).1 (hother.trans h.symm)
  · obtain ⟨⟨j, placed⟩, hentry, hpair⟩ := List.mem_map.1 htaken
    obtain ⟨d, hd, hindex, -⟩ := exists_of_mem_claim hentry
    obtain ⟨k, q, hk, rfl, hprecedes⟩ := hfirst d hd
    have hjk : j = k := hindex
    subst hjk
    refine h j hprecedes (getElem?_place.2 ?_)
    rw [hqueue, claim_append, ← Placement.eq_of_pair hpair]
    exact List.mem_append_left _ hentry
  · -- Those in front have plain targets of their own, so they are given these.
    have hindex := (index_queue s sources).nodup_iff.2 List.nodup_range
    rw [hqueue, List.map_append] at hindex
    have hnodup : (first.map fun c => (c.module, withExtension c.stem)).Nodup := by
      refine List.Nodup.map_on (fun d hd e he heq => ?_)
        (List.Nodup.of_map _ (List.nodup_append.1 hindex).1)
      obtain ⟨j, q, hj, rfl, hbefore⟩ := hfirst d hd
      obtain ⟨k, r, hk, rfl, hbefore'⟩ := hfirst e he
      rw [pair_plainTarget, pair_plainTarget] at heq
      obtain rfl := h j k q r hbefore hbefore' hj hk (Placement.eq_of_pair heq)
      rw [Option.some.inj (hj.symm.trans hk)]
    rw [claim_of_nodup hnodup fun _ _ => List.not_mem_nil]
    intro htaken
    obtain ⟨d, hd, heq⟩ := List.mem_map.1 htaken
    obtain ⟨j, q, hj, rfl, hbefore⟩ := hfirst d hd
    rw [pair_plainTarget] at heq
    exact hbefore.ne (own j q hj (Placement.eq_of_pair heq))

theorem own_of_zipIdx {i : Nat} {p : Path}
    (h : ∀ x ∈ sources.zipIdx, plainTarget s x.1 = plainTarget s p → x.2 = i) :
    ∀ j q, sources[j]? = some q → plainTarget s q = plainTarget s p → j = i :=
  fun j q hj => h (q, j) (List.mem_zipIdx_iff_getElem?.2 hj)

/-- Of two files with the same name the one in a directory is renamed, so that the numbered name of
the other one is not needed. -/
theorem place_owned_directory :
    let sources : List Path := [⟨"utils.py"⟩, ⟨"a/utils.py"⟩, ⟨"utils_2.py"⟩]
    sources[2]? = some ⟨"utils_2.py"⟩ ∧
      (∀ j q, sources[j]? = some q → plainTarget {} q = plainTarget {} ⟨"utils_2.py"⟩ → j = 2) ∧
      (place {} sources).1[2]? = some ⟨"common", "utils_2.go"⟩ := by
  intro sources
  have hown := @own_of_zipIdx {} sources 2 ⟨"utils_2.py"⟩ (by decide +kernel)
  have hfirst (j : Nat) (h : Precedes {} sources j 2) : j = 0 := by
    obtain ⟨q, hj, hkeeps, -⟩ := h.keeps
    match j, h.ne, hj with
    | 0, _, _ => rfl
    | 1, _, hj =>
      cases hj
      rcases hkeeps with halone | hnone
      · exact (halone 0 ⟨"utils.py"⟩ rfl (by decide +kernel) (by decide +kernel)).symm
      · exact absurd hnone (by decide +kernel)
    | 2, hne, _ => exact absurd rfl hne
  have htarget : plainTarget {} ⟨"utils_2.py"⟩ = ⟨"common", "utils_2.go"⟩ := by decide +kernel
  refine ⟨rfl, hown, htarget ▸ (place_owned rfl hown).2 fun j k q r hj hk _ _ _ => ?_⟩
  rw [hfirst j hj, hfirst k hk]

/-- Of two files with the same stem and no directory one is given a number, and with it the target
that another file owns. -/
theorem place_fails_owned :
    let sources : List Path := [⟨"_utils.py"⟩, ⟨"utils.py"⟩, ⟨"utils_2.py"⟩]
    sources.Nodup ∧ sources[2]? = some ⟨"utils_2.py"⟩ ∧
      (∀ j q, sources[j]? = some q → plainTarget {} q = plainTarget {} ⟨"utils_2.py"⟩ → j = 2) ∧
      plainTarget {} ⟨"utils_2.py"⟩ = ⟨"common", "utils_2.go"⟩ ∧
      (place {} sources).1[2]? = some ⟨"common", "utils_2_2.go"⟩ := by
  intro sources
  have hsorted : ((plainCandidates {} sources).map
      (separate (plainCandidates {} sources))).Pairwise fun a b => a.before b = true := by
    decide +kernel
  refine ⟨by decide, rfl, own_of_zipIdx (by decide +kernel), by decide +kernel, ?_⟩
  rw [getElem?_place, queue, List.mergeSort_of_pairwise hsorted]
  decide +kernel

end Places

end Recast.Layout
