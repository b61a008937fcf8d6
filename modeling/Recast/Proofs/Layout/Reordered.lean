/-
  Proofs/Layout/Reordered.lean --- the order in which sources are given makes no difference.

  How a source is told apart from its rivals depends on which sources there are (`toldStem_perm`),
  and the queue in which files are given away is put in order by the paths (`anonymous_queue_perm`).
  So each source gets the same place wherever it stands among the others (`place_perm`).
-/
import Mathlib.Data.List.Perm.Basic
import Recast.Proofs.Layout.Targets

set_option autoImplicit false

namespace Recast.Layout

/-! ## How deep the names of colliding files go -/

theorem nodup_eraseDups (l : List String) : l.eraseDups.Nodup := by
  cases l with
  | nil => exact List.nodup_nil
  | cons a l =>
    rw [List.eraseDups_cons]
    refine List.nodup_cons.2 ⟨fun hmem => ?_, nodup_eraseDups (l.filter fun b => !b == a)⟩
    have hne := (List.mem_filter.1 (List.mem_eraseDups.1 hmem)).2
    simp at hne
termination_by l.length
decreasing_by exact Nat.lt_succ_of_le (List.length_filter_le _ _)

theorem length_eraseDups_perm {l l' : List String} (h : l.Perm l') :
    l.eraseDups.length = l'.eraseDups.length := by
  have hmem (a : String) : a ∈ l.eraseDups ↔ a ∈ l'.eraseDups := by
    rw [List.mem_eraseDups, List.mem_eraseDups, h.mem_iff]
  exact ((List.perm_ext_iff_of_nodup (nodup_eraseDups l) (nodup_eraseDups l')).2 hmem).length_eq

/-- How many directory names stand in front of the names of colliding files. -/
def depthOf (stem : String) (directories : List (List String)) : Nat :=
  let deepest := max 1 ((directories.map List.length).foldl max 0)
  match (List.range deepest).find? fun i =>
      (directories.map fun d => prefixed stem d (i + 1)).eraseDups.length = directories.length with
  | some i => i + 1
  | none => deepest

theorem separated_eq_map (stem : String) (directories : List (List String)) :
    separated stem directories =
      directories.map fun d => prefixed stem d (depthOf stem directories) := by
  unfold separated depthOf
  dsimp only
  split
  · next i hfind => rw [hfind]
  · next hfind => rw [hfind]

theorem depthOf_perm (stem : String) {directories directories' : List (List String)}
    (h : directories.Perm directories') : depthOf stem directories = depthOf stem directories' := by
  have hdeepest : (directories.map List.length).foldl max 0 =
      (directories'.map List.length).foldl max 0 := (h.map _).foldl_eq 0
  have hapart (i : Nat) : (directories.map fun d => prefixed stem d (i + 1)).eraseDups.length =
      (directories'.map fun d => prefixed stem d (i + 1)).eraseDups.length :=
    length_eraseDups_perm (h.map _)
  unfold depthOf
  simp only [hdeepest, hapart, h.length_eq]

section Sources

variable {s : Settings} {sources order : List Path}

/-! ## How sources are told apart -/

/-- The sources that go for the plain target of a source, itself among them. -/
def rivals (s : Settings) (sources : List Path) (p : Path) : List Path :=
  sources.filter fun q =>
    s.classify p.fileName == s.classify q.fileName && goStem p.fileName == goStem q.fileName

/-- The stem by which a source is told apart from its rivals. -/
def toldStem (s : Settings) (sources : List Path) (p : Path) : String :=
  if (rivals s sources p).length ≤ 1 then goStem p.fileName
  else prefixed (goStem p.fileName) (directoryNames p)
    (depthOf (goStem p.fileName) ((rivals s sources p).map directoryNames))

theorem toldStem_perm (h : order.Perm sources) (p : Path) :
    toldStem s order p = toldStem s sources p := by
  have hrivals : (rivals s order p).Perm (rivals s sources p) := h.filter _
  rw [toldStem, toldStem, hrivals.length_eq, depthOf_perm _ (hrivals.map directoryNames)]

/-- A source in the queue, under a number. -/
def queued (s : Settings) (sources : List Path) (i : Nat) (p : Path) : Candidate :=
  ⟨i, p, s.classify p.fileName, toldStem s sources p, toldStem s sources p != goStem p.fileName⟩

theorem map_path_plainCandidates (s : Settings) (sources : List Path) :
    (plainCandidates s sources).map (·.path) = sources := by
  refine List.ext_getElem? fun i => ?_
  rw [List.getElem?_map, getElem?_plainCandidates, Option.map_map]
  exact Option.map_id'

/-- The candidates that collide with a source are its rivals. -/
theorem map_path_group (i : Nat) (p : Path) :
    ((plainCandidates s sources).filter (plainCandidate s i p).collides).map (·.path) =
      rivals s sources p := by
  have hrivals : rivals s ((plainCandidates s sources).map (·.path)) p = rivals s sources p := by
    rw [map_path_plainCandidates]
  rw [← hrivals, rivals, List.filter_map]
  refine congrArg (List.map _) (List.filter_congr fun c hc => ?_)
  obtain ⟨j, q, -, rfl⟩ := mem_plainCandidates.1 hc
  rw [Candidate.collides, module_plainCandidate, module_plainCandidate, stem_plainCandidate,
    stem_plainCandidate, Function.comp_apply, path_plainCandidate]

/-- A candidate among others that collide with it takes as many names as tell them apart. -/
theorem separate_eq_prefixed {all : List Candidate} (hnodup : (all.map (·.index)).Nodup)
    {c : Candidate} (hc : c ∈ all) (h : ¬(all.filter c.collides).length ≤ 1) :
    let stem := prefixed c.stem (directoryNames c.path)
      (depthOf c.stem (((all.filter c.collides).map (·.path)).map directoryNames))
    separate all c = { c with stem := stem, renamed := stem != c.stem } := by
  have hmem : c ∈ all.filter c.collides :=
    List.mem_filter.2 ⟨hc, by rw [Candidate.collides, beq_self_eq_true, beq_self_eq_true]; rfl⟩
  have hfind := find?_index ((List.filter_sublist.map _).nodup hnodup) hmem
  have hdirectories : ((all.filter c.collides).map fun m => directoryNames m.path) =
      ((all.filter c.collides).map (·.path)).map directoryNames := by
    rw [List.map_map]
    rfl
  rw [separate_eq, if_neg h, separated_eq_map, ← hdirectories, List.map_map,
    ← List.map_prod_left_eq_zip, List.find?_map]
  change (Option.map _ ((all.filter c.collides).find? fun m => m.index = c.index)).elim _ _ = _
  rw [hfind]
  rfl

/-- The stem of a source in the queue depends on what its rivals are, not on where they stand. -/
theorem separate_eq_queued {i : Nat} {p : Path} (hi : sources[i]? = some p) :
    separate (plainCandidates s sources) (plainCandidate s i p) = queued s sources i p := by
  have hgroup := @map_path_group s sources i p
  have hlength := congrArg List.length hgroup
  rw [List.length_map] at hlength
  rw [queued, toldStem, ← hlength]
  by_cases halone : ((plainCandidates s sources).filter (plainCandidate s i p).collides).length ≤ 1
  · rw [separate_eq, if_pos halone, if_pos halone, bne_self_eq_false, plainCandidate]
  · have hmem := mem_plainCandidates.2 ⟨i, p, hi, @rfl _ (plainCandidate s i p)⟩
    rw [separate_eq_prefixed (nodup_index s sources) hmem halone, hgroup, if_neg halone,
      stem_plainCandidate, path_plainCandidate, module_plainCandidate, index_plainCandidate]

/-! ## The queue without the positions of the sources -/

/-- A candidate of which one does not know where its source stands. -/
def Candidate.anonymous (c : Candidate) : Candidate := { c with index := 0 }

/-- The claims depend on the order of the candidates, and not on where their sources stand. -/
theorem claim_anonymous (taken : List (String × String)) (cs : List Candidate) :
    (claim taken (cs.map Candidate.anonymous)).1.map (·.2) = (claim taken cs).1.map (·.2) ∧
      (claim taken (cs.map Candidate.anonymous)).2 = (claim taken cs).2 := by
  induction cs generalizing taken with
  | nil => exact ⟨rfl, rfl⟩
  | cons c cs ih =>
    obtain ⟨hplaced, hlog⟩ := ih ((c.module, (freeFile taken c.module c.stem).1) :: taken)
    refine ⟨?_, ?_⟩
    · rw [List.map_cons, claim_cons, claim_cons, List.map_cons, List.map_cons]
      exact congrArg (List.cons _) hplaced
    · rw [List.map_cons]
      unfold claim
      dsimp only [Candidate.anonymous]
      exact congrArg (_ ++ ·) hlog

theorem anonymous_queued (i : Nat) (p : Path) :
    (queued s sources i p).anonymous = queued s sources 0 p := by
  rw [queued, Candidate.anonymous, queued]

theorem anonymous_queue (s : Settings) (sources : List Path) :
    ((queue s sources).map Candidate.anonymous).Perm (sources.map (queued s sources 0)) := by
  refine ((List.mergeSort_perm _ _).map _).trans (.of_eq ?_)
  rw [List.map_map]
  refine List.ext_getElem? fun i => ?_
  rw [List.getElem?_map, List.getElem?_map, getElem?_plainCandidates, Option.map_map]
  cases hi : sources[i]? with
  | none => rfl
  | some p =>
    rw [Option.map_some, Option.map_some, Function.comp_apply, Function.comp_apply,
      separate_eq_queued hi, anonymous_queued]

/-- Paths that are different have components that are. -/
theorem eq_of_same (distinct : sources.Pairwise fun p q => p.same q = false) {p q : Path}
    (hp : p ∈ sources) (hq : q ∈ sources) (h : p.same q = true) : p = q := by
  have hforward : sources.Pairwise fun p q : Path => p.same q = true → p = q :=
    distinct.imp fun hdifferent hsame => absurd (hdifferent.symm.trans hsame) Bool.false_ne_true
  have hbackward : sources.Pairwise (flip fun p q : Path => p.same q = true → p = q) :=
    hforward.imp fun himp hsame => (himp ((Path.same_comm ..).trans hsame)).symm
  exact List.Pairwise.forall_of_forall_of_flip (fun _ _ _ => rfl) hforward hbackward hp hq h

/-- Different sources stand in the queue in one order, in whatever order they were given. -/
theorem anonymous_queue_perm (distinct : sources.Pairwise fun p q => p.same q = false)
    (h : order.Perm sources) :
    (queue s order).map Candidate.anonymous = (queue s sources).map Candidate.anonymous := by
  have hsame : order.map (queued s order 0) = order.map (queued s sources 0) :=
    List.map_congr_left fun p _ => by rw [queued, queued, toldStem_perm h]
  have horder : ((queue s order).map Candidate.anonymous).Perm (sources.map (queued s sources 0)) :=
    (anonymous_queue s order).trans (hsame ▸ h.map _)
  have hsorted (l : List Path) : ((queue s l).map Candidate.anonymous).Pairwise
      fun a b => a.before b = true := List.pairwise_map.2 (pairwise_queue s l)
  refine List.Perm.eq_of_pairwise (fun a b ha hb hab hba => ?_) (hsorted order) (hsorted sources)
    (horder.trans (anonymous_queue s sources).symm)
  obtain ⟨p, hp, rfl⟩ := List.mem_map.1 (horder.subset ha)
  obtain ⟨q, hq, rfl⟩ := List.mem_map.1 ((anonymous_queue s sources).subset hb)
  -- Neither goes before the other one only if both paths have the same components.
  unfold Candidate.before at hab hba
  by_cases hrenamed : (queued s sources 0 p).renamed = (queued s sources 0 q).renamed
  · rw [if_pos hrenamed] at hab
    rw [if_pos hrenamed.symm] at hba
    rw [eq_of_same distinct hp hq (Path.same_of_le hab hba)]
  · rw [if_neg hrenamed, Bool.not_eq_true'] at hab
    rw [if_neg (Ne.symm hrenamed), Bool.not_eq_true'] at hba
    exact absurd (hab.trans hba.symm) hrenamed

/-! ## Places -/

/-- The sources with what they are given, in the order in which it is given to them. -/
def served (s : Settings) (sources : List Path) : List (Path × Placement) :=
  ((queue s sources).map (·.path)).zip ((claim [] (queue s sources)).1.map (·.2))

theorem served_perm (distinct : sources.Pairwise fun p q => p.same q = false)
    (h : order.Perm sources) : served s order = served s sources := by
  have hpaths (l : List Path) : (queue s l).map (·.path) =
      ((queue s l).map Candidate.anonymous).map (·.path) := by
    rw [List.map_map]
    rfl
  rw [served, served, hpaths, hpaths, ← (claim_anonymous [] (queue s order)).1,
    ← (claim_anonymous [] (queue s sources)).1, anonymous_queue_perm distinct h]

/-- The sources are served one by one. -/
theorem fst_served (s : Settings) (sources : List Path) :
    ((served s sources).map (·.1)).Perm sources := by
  have hlength : (queue s sources).length ≤ (claim [] (queue s sources)).1.length := by
    have hindex := congrArg List.length (index_claim [] (queue s sources))
    rw [List.length_map, List.length_map] at hindex
    exact Nat.le_of_eq hindex.symm
  rw [served, List.map_fst_zip (by simpa using hlength)]
  have hpaths : (sources.map (queued s sources 0)).map (·.path) = sources := by
    rw [List.map_map]
    exact List.map_id' _
  have hqueue := (anonymous_queue s sources).map (·.path)
  rw [hpaths, List.map_map] at hqueue
  exact hqueue

/-- What stands in the list of places at the position of a source is what the source was given. -/
theorem mem_served {i : Nat} {p : Path} {placed : Placement} (hi : sources[i]? = some p)
    (h : (place s sources).1[i]? = some placed) : (p, placed) ∈ served s sources := by
  obtain ⟨k, hk⟩ := List.mem_iff_getElem?.1 (getElem?_place.1 h)
  have hindex : ((claim [] (queue s sources)).1.map (·.1))[k]? =
      ((queue s sources).map (·.index))[k]? :=
    congrArg (·[k]?) (index_claim [] (queue s sources))
  rw [List.getElem?_map, List.getElem?_map, hk, Option.map_some] at hindex
  obtain ⟨c, hc, hci⟩ := Option.map_eq_some_iff.1 hindex.symm
  obtain ⟨j, q, hj, rfl⟩ := mem_queue.1 (List.mem_of_getElem? hc)
  rw [separate_eq_queued hj] at hc hci
  have hij : j = i := hci
  subst hij
  cases hi.symm.trans hj
  refine List.mem_of_getElem? (i := k) (List.getElem?_zip_eq_some.2 ⟨?_, ?_⟩)
  · rw [List.getElem?_map, hc]
    rfl
  · rw [List.getElem?_map, hk]
    rfl

/-- What a source is given. -/
def assigned (s : Settings) (sources : List Path) (p : Path) : Placement :=
  (((served s sources).find? fun e => e.1 = p).map (·.2)).getD default

theorem assigned_eq (hnodup : sources.Nodup) {p : Path} {placed : Placement}
    (h : (p, placed) ∈ served s sources) : assigned s sources p = placed := by
  unfold assigned
  cases hfind : (served s sources).find? fun e => e.1 = p with
  | none => simpa using List.find?_eq_none.1 hfind _ h
  | some e =>
    have hpath : e.1 = p := by simpa using List.find?_some hfind
    have hkeys := (fst_served s sources).nodup_iff.2 hnodup
    rw [List.inj_on_of_nodup_map hkeys (List.mem_of_find?_eq_some hfind) h hpath]
    rfl

/-- The places of different sources do not depend on the order in which the sources are given: each
path has one module and one file, and the same is said about it. -/
theorem place_perm (s : Settings) {sources : List Path}
    (distinct : sources.Pairwise fun p q => p.same q = false) :
    ∃ assigned : Path → Placement, ∀ order : List Path, order.Perm sources →
      (place s order).1 = order.map assigned ∧ (place s order).2 = (place s sources).2 := by
  have hnodup : sources.Nodup := distinct.imp fun hdifferent heq => by
    rw [heq, Path.same_refl] at hdifferent
    cases hdifferent
  refine ⟨assigned s sources, fun order h => ⟨List.ext_getElem? fun i => ?_, ?_⟩⟩
  · rw [List.getElem?_map]
    cases hi : order[i]? with
    | none =>
      rw [List.getElem?_eq_none_iff] at hi
      exact List.getElem?_eq_none ((place_spec s order).1 ▸ hi)
    | some p =>
      obtain ⟨hlt, -⟩ := List.getElem?_eq_some_iff.1 hi
      have hplaced := List.getElem?_eq_getElem ((place_spec s order).1.symm ▸ hlt)
      rw [hplaced, Option.map_some,
        assigned_eq hnodup (served_perm distinct h ▸ mem_served hi hplaced)]
  · change (claim [] (queue s order)).2 = (claim [] (queue s sources)).2
    rw [← (claim_anonymous [] (queue s order)).2, ← (claim_anonymous [] (queue s sources)).2,
      anonymous_queue_perm distinct h]

/-- Files of one name, given from the last one to the first and the other way round. -/
theorem place_perm_colliding :
    let sources : List Path := [⟨"a/utils.py"⟩, ⟨"_utils.py"⟩, ⟨"b/utils.py"⟩, ⟨"utils.py"⟩]
    (sources.Pairwise fun p q => p.same q = false) ∧ sources.reverse.Perm sources ∧
      ∃ assigned : Path → Placement, (place {} sources).1 = sources.map assigned ∧
        (place {} sources.reverse).1 = sources.reverse.map assigned := by
  intro sources
  have hdistinct : sources.Pairwise fun p q => p.same q = false := by decide +kernel
  obtain ⟨assigned, hassigned⟩ := place_perm {} hdistinct
  exact ⟨hdistinct, List.reverse_perm _, assigned, (hassigned _ (.refl _)).1,
    (hassigned _ (List.reverse_perm _)).1⟩

end Sources

end Recast.Layout
