/-
  Proofs/Layout/Outer.lean --- sources seen from a directory further out.

  The place of a source file is decided by its name and by as many of its innermost directories as
  tell it apart from the files it collides with.  When those lie within the directory that the
  sources are given relative to, the directories outside of it do not matter (`place_outer`).
-/
import Recast.Layout.Placement
import Recast.Proofs.Path

set_option autoImplicit false

namespace Recast.Layout

/-! ## Directory names -/

theorem exists_directoryNames (outer : List Path.Component) :
    ∃ names, ∀ p q : Path, p.components ≠ [] → q.components = outer ++ p.components →
      directoryNames q = names ++ directoryNames p := by
  apply Exists.intro
  intro p q hne h
  rw [directoryNames, directoryNames, Path.parentComponents, h, List.dropLast_append_of_ne_nil hne,
    List.filterMap_append, List.filter_append]
  rfl

theorem prefixed_append (stem : String) (outer : List String) {names : List String} {depth : Nat}
    (h : depth ≤ names.length) : prefixed stem (outer ++ names) depth = prefixed stem names depth := by
  have hdrop : (outer ++ names).length - depth = outer.length + (names.length - depth) := by
    rw [List.length_append]
    omega
  rw [prefixed, hdrop, List.drop_length_add_append, prefixed]

theorem eraseDups_of_nodup {α : Type} [DecidableEq α] {l : List α} (h : l.Nodup) :
    l.eraseDups = l := by
  induction l with
  | nil => rfl
  | cons a l ih =>
    obtain ⟨hnot, hnodup⟩ := List.nodup_cons.1 h
    rw [List.eraseDups_cons, List.filter_eq_self.2, ih hnodup]
    intro b hb
    have hne : b ≠ a := fun heq => hnot (heq ▸ hb)
    simpa using hne

/-- The first number that passes a test, below either of two bounds, if there are two tests that
agree up to one that passes. -/
theorem exists_find?_range {p q : Nat → Bool} {i m n : Nat} (hm : i < m) (hn : i < n)
    (hagree : ∀ j ≤ i, p j = q j) (hpass : q i = true) :
    ∃ j ≤ i, (List.range m).find? p = some j ∧ (List.range n).find? q = some j := by
  have hfirst {r : Nat → Bool} {k : Nat} (hk : i < k) (hr : r i = true) :
      (List.range k).find? r = (List.range (i + 1)).find? r := by
    obtain ⟨d, rfl⟩ : ∃ d, k = i + 1 + d := ⟨k - (i + 1), by omega⟩
    have hsome : ((List.range (i + 1)).find? r).isSome = true := by
      rw [List.find?_isSome]
      exact ⟨i, List.mem_range.2 (Nat.lt_succ_self i), hr⟩
    rw [List.range_add, List.find?_append, Option.or_of_isSome hsome]
  have hcongr (l : List Nat) (hl : ∀ j ∈ l, j ≤ i) : l.find? p = l.find? q := by
    induction l with
    | nil => rfl
    | cons j l ih =>
      rw [List.find?_cons, List.find?_cons, hagree j (hl j (.head _)),
        ih fun k hk => hl k (.tail _ hk)]
  have hbelow (j : Nat) (hj : j ∈ List.range (i + 1)) : j ≤ i :=
    Nat.lt_succ_iff.1 (List.mem_range.1 hj)
  rw [hfirst hm ((hagree i (Nat.le_refl i)).trans hpass), hfirst hn hpass, hcongr _ hbelow]
  cases hfind : (List.range (i + 1)).find? q with
  | none =>
    have hnot := List.find?_eq_none.1 hfind i (List.mem_range.2 (Nat.lt_succ_self i))
    exact absurd hpass hnot
  | some j => exact ⟨j, hbelow j (List.mem_of_find?_eq_some hfind), rfl, rfl⟩

theorem le_foldl_max (l : List Nat) (a : Nat) :
    a ≤ l.foldl max a ∧ ∀ n ∈ l, n ≤ l.foldl max a := by
  induction l generalizing a with
  | nil => exact ⟨Nat.le_refl a, nofun⟩
  | cons m l ih =>
    obtain ⟨hstart, hrest⟩ := ih (max a m)
    refine ⟨Nat.le_trans (Nat.le_max_left a m) hstart, fun n hn => ?_⟩
    rcases List.mem_cons.1 hn with rfl | hn
    · exact Nat.le_trans (Nat.le_max_right a n) hstart
    · exact hrest n hn

theorem separated_eq {stem : String} {directories : List (List String)} {i : Nat}
    (h : ((List.range (max 1 ((directories.map List.length).foldl max 0))).find? fun i =>
      (directories.map fun d => prefixed stem d (i + 1)).eraseDups.length = directories.length) =
        some i) :
    separated stem directories = directories.map fun d => prefixed stem d (i + 1) := by
  unfold separated
  dsimp only
  rw [h]

/-- Directories that all colliding files have tell them apart, whatever is outside of them. -/
theorem separated_outer (stem : String) (outer : List String) {directories : List (List String)}
    {depth : Nat} (hpositive : 1 ≤ depth) (hne : directories ≠ [])
    (hlength : ∀ names ∈ directories, depth ≤ names.length)
    (hnodup : (directories.map fun names => prefixed stem names depth).Nodup) :
    separated stem (directories.map (outer ++ ·)) = separated stem directories := by
  have hnames {i : Nat} (hi : i ≤ depth) :
      (directories.map (outer ++ ·)).map (fun names => prefixed stem names i) =
        directories.map fun names => prefixed stem names i := by
    rw [List.map_map]
    refine List.map_congr_left fun names hmem => ?_
    exact prefixed_append stem outer (Nat.le_trans hi (hlength names hmem))
  have hlast : depth - 1 + 1 = depth := Nat.sub_add_cancel hpositive
  obtain ⟨names, hmem⟩ := List.exists_mem_of_ne_nil directories hne
  -- The search goes at least as far as `depth`, on either side.
  have hdeepest {all : List (List String)} {long : List String} (hlong : long ∈ all)
      (h : depth ≤ long.length) : depth - 1 < max 1 ((all.map List.length).foldl max 0) := by
    have hmax := (le_foldl_max (all.map List.length) 0).2 _ (List.mem_map_of_mem hlong)
    omega
  have houter : depth ≤ (outer ++ names).length := by
    rw [List.length_append]
    exact Nat.le_trans (hlength names hmem) (Nat.le_add_left _ _)
  obtain ⟨i, hi, hfind, hfind'⟩ := exists_find?_range
    (p := fun i => ((directories.map (outer ++ ·)).map fun names =>
      prefixed stem names (i + 1)).eraseDups.length = (directories.map (outer ++ ·)).length)
    (q := fun i => (directories.map fun names =>
      prefixed stem names (i + 1)).eraseDups.length = directories.length)
    (hdeepest (List.mem_map_of_mem hmem) houter) (hdeepest hmem (hlength names hmem))
    (fun j hj => by rw [hnames (by omega), List.length_map])
    (by rw [hlast, eraseDups_of_nodup hnodup, List.length_map]; exact decide_eq_true rfl)
  rw [separated_eq hfind, separated_eq hfind', hnames (by omega)]

/-! ## Candidates further out -/

/-- The candidate with its path further out. -/
def Candidate.move (g : Path → Path) (c : Candidate) : Candidate := { c with path := g c.path }

/-- Paths that are seen from further out. -/
structure Outer (outer : List Path.Component) (g : Path → Path) (p : Path) : Prop where
  components : (g p).components = outer ++ p.components
  nonempty : p.components ≠ []

namespace Outer

variable {outer : List Path.Component} {g : Path → Path} {p q : Path}

theorem fileName (h : Outer outer g p) : (g p).fileName = p.fileName := by
  have hlast : (outer ++ p.components).getLast? = p.components.getLast? := by
    rw [List.getLast?_append, List.getLast?_eq_some_getLast h.nonempty, Option.some_or]
  rw [Path.fileName, Path.fileName, Path.fileName?, Path.fileName?, h.components, hlast]

theorem le (hp : Outer outer g p) (hq : Outer outer g q) : (g p).le (g q) = p.le q := by
  have hkey (a b : List RawText) (x : List RawText) : x ++ a < x ++ b ↔ a < b := by
    induction x with
    | nil => rfl
    | cons s x ih =>
      rw [List.cons_append, List.cons_append, List.cons_lt_cons_iff, ih, eq_self, true_and,
        or_iff_right (Std.lt_irrefl (a := s))]
  have hlt : (g q).key < (g p).key ↔ q.key < p.key := by
    rw [Path.key, Path.key, hp.components, hq.components, List.map_append, List.map_append, hkey]
    rfl
  rw [Path.le, Path.le, decide_eq_decide.2 hlt]

end Outer

theorem before_move {outer : List Path.Component} {g : Path → Path} {a b : Candidate}
    (ha : Outer outer g a.path) (hb : Outer outer g b.path) :
    (a.move g).before (b.move g) = a.before b := by
  unfold Candidate.before Candidate.move
  rw [ha.le hb]

theorem claim_move (g : Path → Path) (taken : List (String × String)) (candidates : List Candidate) :
    (claim taken (candidates.map (Candidate.move g))).1 = (claim taken candidates).1 := by
  induction candidates generalizing taken with
  | nil => rfl
  | cons c rest ih =>
    rw [List.map_cons]
    unfold claim
    dsimp only [Candidate.move]
    rw [ih]

theorem plainCandidates_map {outer : List Path.Component} {g : Path → Path} (s : Settings)
    {sources : List Path} (h : ∀ p ∈ sources, Outer outer g p) :
    plainCandidates s (sources.map g) = (plainCandidates s sources).map (Candidate.move g) := by
  refine List.ext_getElem (by simp [plainCandidates]) fun i hi hi' => ?_
  have hlength : i < sources.length := by simpa [plainCandidates] using hi'
  have hmem : sources[i] ∈ sources := List.getElem_mem hlength
  simp only [plainCandidates, List.getElem_mapIdx, List.getElem_map, Candidate.move,
    (h _ hmem).fileName]

theorem path_mem_of_plainCandidates {s : Settings} {sources : List Path} {c : Candidate}
    (h : c ∈ plainCandidates s sources) : c.path ∈ sources := by
  rw [plainCandidates, List.mem_mapIdx] at h
  obtain ⟨i, hi, rfl⟩ := h
  exact List.getElem_mem hi

/-- Whether sources with the same target are told apart by directories that they all have. -/
def ToldApart (s : Settings) (sources : List Path) : Prop :=
  ∀ c ∈ plainCandidates s sources,
    1 < ((plainCandidates s sources).filter c.collides).length →
      ∃ depth, 1 ≤ depth ∧
        (∀ m ∈ (plainCandidates s sources).filter c.collides,
          depth ≤ (directoryNames m.path).length) ∧
        (((plainCandidates s sources).filter c.collides).map fun m =>
          prefixed c.stem (directoryNames m.path) depth).Nodup

/-- A candidate in a group gets the name that stands in its place. -/
theorem separate_eq (all : List Candidate) (c : Candidate) :
    separate all c =
      if (all.filter c.collides).length ≤ 1 then c
      else
        (((all.filter c.collides).zip (separated c.stem ((all.filter c.collides).map fun m =>
          directoryNames m.path))).find? fun x => x.1.index = c.index).elim c
            fun x => { c with stem := x.2, renamed := x.2 != c.stem } := by
  unfold separate
  dsimp only
  split
  · rfl
  · split
    · next m name hfind => rw [hfind]; rfl
    · next hfind => rw [hfind]; rfl

theorem path_separate (all : List Candidate) (c : Candidate) : (separate all c).path = c.path := by
  rw [separate_eq]
  split
  · rfl
  · cases List.find? _ _ <;> rfl

theorem separate_move {outer : List Path.Component} {g : Path → Path} {all : List Candidate}
    {c : Candidate} (h : ∀ m ∈ all, Outer outer g m.path)
    (happart : 1 < (all.filter c.collides).length → ∃ depth, 1 ≤ depth ∧
      (∀ m ∈ all.filter c.collides, depth ≤ (directoryNames m.path).length) ∧
      ((all.filter c.collides).map fun m => prefixed c.stem (directoryNames m.path) depth).Nodup) :
    separate (all.map (Candidate.move g)) (c.move g) = (separate all c).move g := by
  obtain ⟨names, hnames⟩ := exists_directoryNames outer
  have hgroup : (all.map (Candidate.move g)).filter (c.move g).collides =
      (all.filter c.collides).map (Candidate.move g) := List.filter_map
  have hdirectories : ((all.filter c.collides).map (Candidate.move g)).map
      (fun m => directoryNames m.path) =
        ((all.filter c.collides).map fun m => directoryNames m.path).map (names ++ ·) := by
    rw [List.map_map, List.map_map]
    refine List.map_congr_left fun m hm => ?_
    have hm := h m (List.mem_filter.1 hm).1
    exact hnames m.path (g m.path) hm.nonempty hm.components
  rw [separate_eq, separate_eq, hgroup, hdirectories, List.length_map]
  by_cases halone : (all.filter c.collides).length ≤ 1
  · rw [if_pos halone, if_pos halone]
  · rw [if_neg halone, if_neg halone]
    obtain ⟨depth, hpositive, hlength, hnodup⟩ := happart (Nat.lt_of_not_le halone)
    have hne : ((all.filter c.collides).map fun m => directoryNames m.path) ≠ [] := by
      intro hnil
      rw [List.map_eq_nil_iff] at hnil
      rw [hnil] at halone
      exact halone (Nat.zero_le 1)
    have hlength' : ∀ d ∈ (all.filter c.collides).map fun m => directoryNames m.path,
        depth ≤ d.length := by
      intro d hd
      obtain ⟨m, hm, rfl⟩ := List.mem_map.1 hd
      exact hlength m hm
    rw [show (c.move g).stem = c.stem from rfl,
      separated_outer c.stem names hpositive hne hlength' (by rw [List.map_map]; exact hnodup),
      List.zip_map_left, List.find?_map]
    generalize (all.filter c.collides).zip _ = named
    change ((named.find? fun x => x.1.index = c.index).map (Prod.map (Candidate.move g) id)).elim _ _ = _
    cases named.find? fun x => x.1.index = c.index <;> rfl

/-- Sources that are told apart by directories that they all have get the same places when they are
seen from further out. -/
theorem place_outer {outer : List Path.Component} {g : Path → Path} {s : Settings}
    {sources : List Path} (h : ∀ p ∈ sources, Outer outer g p) (happart : ToldApart s sources) :
    (place s (sources.map g)).1 = (place s sources).1 := by
  have hplain (c : Candidate) (hc : c ∈ plainCandidates s sources) : Outer outer g c.path :=
    h _ (path_mem_of_plainCandidates hc)
  have hseparate : ((plainCandidates s sources).map (Candidate.move g)).map
      (separate ((plainCandidates s sources).map (Candidate.move g))) =
        ((plainCandidates s sources).map (separate (plainCandidates s sources))).map
          (Candidate.move g) := by
    rw [List.map_map, List.map_map]
    exact List.map_congr_left fun c hc => separate_move hplain (happart c hc)
  have hsort : (((plainCandidates s sources).map (separate (plainCandidates s sources))).map
      (Candidate.move g)).mergeSort Candidate.before =
        (((plainCandidates s sources).map (separate (plainCandidates s sources))).mergeSort
          Candidate.before).map (Candidate.move g) := by
    refine (List.map_mergeSort fun a ha b hb => ?_).symm
    obtain ⟨c, hc, rfl⟩ := List.mem_map.1 ha
    obtain ⟨d, hd, rfl⟩ := List.mem_map.1 hb
    have hca := hplain c hc
    have hdb := hplain d hd
    rw [← path_separate (plainCandidates s sources)] at hca hdb
    exact (before_move hca hdb).symm
  unfold place
  dsimp only
  rw [plainCandidates_map s h, hseparate, hsort, claim_move]

end Recast.Layout
