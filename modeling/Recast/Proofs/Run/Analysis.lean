/-
  Proofs/Run/Analysis.lean --- what the first pass does to the cache and to the index.

  Analyzing a file is decided by what the cache and the index hold about that file, and it changes
  nothing else: the memo of the file becomes `memoAfter` and its records become those of
  `indexAfter`, as far as digests tell files apart.
-/
import Recast.Proofs.Cache.History
import Recast.Proofs.Layout.Placement
import Recast.Proofs.Meaning.Index
import Recast.Proofs.Outline.Names
import Recast.Run.Workers

set_option autoImplicit false

namespace Recast

/-! ## Outlines of files -/

/-- The numbers of an outline are machine words from the start. -/
theorem Outline.fits_of_ofBytes {content : ByteArray} {o : Outline}
    (h : Outline.ofBytes content = .ok o) : o.Fits := by
  have hword (line : Nat) : lineWord line < 2 ^ 64 := UInt64.toNat_lt _
  have hgiven : Given ClassDecl.Fits FunctionDecl.Fits := by
    refine ⟨fun _ _ _ _ line => hword line, fun scope _ _ _ startLine endLine => ?_⟩
    cases scope <;> exact ⟨hword startLine, hword endLine⟩
  obtain ⟨lines, body, rfl⟩ := exists_ofTree_of_ofBytes h
  obtain ⟨hclasses, hfunctions⟩ := all_ofTree hgiven lines body
  exact ⟨hclasses, hfunctions⟩

/-- A file that parses, with its outline. -/
def SourceFile.HasOutline (file : SourceFile) (o : Outline) : Prop :=
  file.syntaxError = none ∧ Outline.ofBytes file.content = .ok o

theorem SourceFile.HasOutline.unique {file : SourceFile} {o o' : Outline} (h : file.HasOutline o)
    (h' : file.HasOutline o') : o = o' := by
  have heq := h.2.symm.trans h'.2
  exact Except.ok.inj heq

namespace Cache

/-! ## Caches that do not fail -/

/-- The outline that a memo keeps for content with a digest. -/
def Memo.outline? (digest : Digest) (m : Option Memo) : Option Outline :=
  (about digest m).bind (·.outline)

theorem outline?_eq_memo (c : Cache) (files : Files) (path : Path) (digest : Digest) :
    (c.outline? files path digest).1 = Memo.outline? digest (c.memo? files path) := by
  rw [fst_outline?, Memo.outline?, about_memo?, Option.bind_map]
  rfl

/-- A cache that does not fail: there is no store, or it works. -/
def Steady (c : Cache) (files : Files) : Prop :=
  (∃ reason, c.store = .error reason) ∨ Working c files

namespace Steady

variable {c d : Cache} {files : Files}

theorem congr (h : Steady c files) (hstore : d.store = c.store) : Steady d files := by
  rw [Steady, Working, hstore]
  exact h

theorem memo?_of_missing (h : c.isAvailable = false) (path : Path) : c.memo? files path = none := by
  rw [memo?, remembers, load]
  cases hstore : c.store with
  | error reason => rfl
  | ok s =>
    rw [isAvailable, hstore] at h
    cases h

/-- A cache that does not fail keeps a part that is put, if it has a store. -/
theorem put (h : Steady c files) (path : Path) (digest : Digest) {part : Part} (hfits : part.Fits) :
    Steady ((Change.put path digest part).apply (c, files)).1
        ((Change.put path digest part).apply (c, files)).2 ∧
      ((Change.put path digest part).apply (c, files)).1.isAvailable = c.isAvailable ∧
      ∀ other, ToldApart path other →
        ((Change.put path digest part).apply (c, files)).1.memo?
            ((Change.put path digest part).apply (c, files)).2 other =
          if c.isAvailable then (Change.put path digest part).effect (· = other) (c.memo? files other)
          else c.memo? files other := by
  rcases h with ⟨reason, hstore⟩ | hworking
  · have hsame : (Change.put path digest part).apply (c, files) = (c, files) := by
      rw [apply_put, update, hstore]
    have hmissing : c.isAvailable = false := by
      rw [isAvailable, hstore]
      rfl
    rw [hsame]
    exact ⟨.inl ⟨reason, hstore⟩, rfl, fun other _ => by rw [hmissing, if_neg Bool.false_ne_true]⟩
  · have hput : (Change.put path digest part).Fits := hfits
    obtain ⟨⟨t, hcache⟩, hworking', -, -⟩ := memo?_apply hworking hput
    have hmemo (other : Path) (htold : ∀ p, (Change.put path digest part).path? = some p →
        ToldApart p other) := memo?_apply_of_toldApart hworking hput htold
    obtain ⟨s, hstore, -⟩ := hworking
    have havailable : c.isAvailable = true := by
      rw [isAvailable, hstore]
      rfl
    refine ⟨.inr hworking', ?_, fun other hother => ?_⟩
    · rw [hcache, havailable]
      rfl
    · rw [if_pos havailable]
      refine hmemo other fun p hp => ?_
      cases hp
      exact hother

end Steady

end Cache

namespace Run

open Cache (Memo)

/-- What the cache knows about a file after its analysis. -/
def memoAfter (file : SourceFile) (m : Option Memo) : Option Memo :=
  match file.syntaxError with
  | some _ => m
  | none =>
    match Memo.outline? file.digest m with
    | some _ => m
    | none =>
      match Outline.ofBytes file.content with
      | .ok o => (Cache.Change.put file.path file.digest (.outline o)).effect (· = file.path) m
      | .error _ => m

/-- The cache serves an outline of a file that parses after its analysis. -/
theorem exists_outline?_memoAfter {file : SourceFile} {o : Outline} (ho : file.HasOutline o)
    (m : Option Memo) : ∃ o', Memo.outline? file.digest (memoAfter file m) = some o' := by
  unfold memoAfter
  rw [ho.1, ho.2]
  cases hknown : Memo.outline? file.digest m with
  | some o' => exact ⟨o', hknown⟩
  | none =>
    refine ⟨o, ?_⟩
    dsimp only
    rw [Memo.outline?, Cache.about_effect]
    dsimp only
    rw [if_pos rfl, if_pos rfl]
    rfl

/-- The index after the analysis of a file about which the cache knows something. -/
def indexAfter (file : SourceFile) (m : Option Memo) (ix : Meaning.Index) : Meaning.Index :=
  match file.syntaxError with
  | some _ => (ix.removeFile file.path).2
  | none =>
    match Memo.outline? file.digest m with
    | some o =>
      if (ix.fileMeaning? file.path).isNone then (ix.addOutline file.path file.path.stem o).2
      else ix
    | none =>
      match Outline.ofBytes file.content with
      | .ok o => (ix.addOutline file.path file.path.stem o).2
      | .error _ => (ix.removeFile file.path).2

/-- An outline that the cache knows leaves an index alone that has not lost the file. -/
theorem indexAfter_of_known {file : SourceFile} {m : Option Memo} {ix : Meaning.Index} {o : Outline}
    (hparses : file.syntaxError = none) (hknown : Memo.outline? file.digest m = some o)
    (hmeaning : ix.fileMeaning? file.path ≠ none) : indexAfter file m ix = ix := by
  unfold indexAfter
  rw [hparses, hknown]
  dsimp only
  rw [if_neg (by rwa [Option.isNone_iff_eq_none])]

/-- A file whose outline the cache knows has a meaning in the index afterwards. -/
theorem fileMeaning?_indexAfter {ix : Meaning.Index} {length dimension : Nat}
    (h : ix.Uniform length) (henabled : ix.enabled = true)
    (hembedder : ix.embedder = .hashing dimension) {file : SourceFile}
    (hparses : file.syntaxError = none) {m : Option Memo} {o : Outline}
    (hknown : Memo.outline? file.digest m = some o) :
    (indexAfter file m ix).fileMeaning? file.path ≠ none := by
  unfold indexAfter
  rw [hparses, hknown]
  dsimp only
  split
  · exact Meaning.Index.fileMeaning?_addOutline h henabled hembedder _ _ _
  · next hthere => rwa [Option.isNone_iff_eq_none] at hthere

/-- The analysis of a file changes nothing of an index but its records. -/
theorem exists_indexAfter (file : SourceFile) (m : Option Memo) (ix : Meaning.Index) :
    ∃ records, indexAfter file m ix = { ix with records } := by
  have hput (path : Path) (ds : List Meaning.Index.Draft) (ix : Meaning.Index) :
      ∃ records, (Meaning.Index.putAll path ix ds).2 = { ix with records } := by
    induction ds generalizing ix with
    | nil => exact ⟨ix.records, rfl⟩
    | cons d ds ih =>
      unfold Meaning.Index.putAll
      split
      · next next heq =>
        have hnext : ∃ records, next = { ix with records } := by
          unfold Meaning.Index.put at heq
          split at heq
          · cases heq
            exact ⟨ix.records, rfl⟩
          · split at heq
            · cases heq
            · dsimp only at heq
              split at heq
              · cases heq
                exact ⟨_, rfl⟩
              · cases heq
        obtain ⟨records, rfl⟩ := hnext
        exact ih _
      · exact ⟨ix.records, rfl⟩
  have hadd (o : Outline) :
      ∃ records, (ix.addOutline file.path file.path.stem o).2 = { ix with records } := by
    unfold Meaning.Index.addOutline
    split
    · exact ⟨ix.records, rfl⟩
    · exact hput _ _ _
  unfold indexAfter
  cases file.syntaxError with
  | some reason => exact ⟨_, rfl⟩
  | none =>
    cases Memo.outline? file.digest m with
    | some o =>
      dsimp only
      split
      · exact hadd o
      · exact ⟨ix.records, rfl⟩
    | none =>
      dsimp only
      cases Outline.ofBytes file.content with
      | ok o => exact hadd o
      | error e => exact ⟨_, rfl⟩

namespace Shared

variable {σ : Type}

/-- What the cache of a run knows about a file. -/
def memo? (s : Shared σ) (path : Path) : Option Memo := s.cache.memo? s.files path

theorem learn_eq (file : SourceFile) (o : Outline) (s : Shared σ) :
    ∃ log, s.learn file o =
      { s with index := (s.index.addOutline file.path file.path.stem o).2, log } := by
  unfold learn
  split
  · next index heq => exact ⟨s.log, by rw [heq]⟩
  · next e index heq => exact ⟨_, by rw [heq]; rfl⟩

/-- The cache and the files, as changes take them. -/
def kept (s : Shared σ) : Cache × Files := (s.cache, s.files)

/-- What the analysis of a file does: the cache is asked, an outline that it does not know is put
into it, and the index changes. -/
theorem analyze_cases (file : SourceFile) (s : Shared σ) :
    (s.analyze file).2.index = indexAfter file (s.memo? file.path) s.index ∧
      ((∃ c, Cache.Consulted s.cache c ∧ (s.analyze file).2.kept = (c, s.files) ∧
          memoAfter file (s.memo? file.path) = s.memo? file.path) ∨
        ∃ c o, Cache.Consulted s.cache c ∧ file.HasOutline o ∧
          (s.analyze file).2.kept =
            (Cache.Change.put file.path file.digest (.outline o)).apply (c, s.files) ∧
          memoAfter file (s.memo? file.path) =
            (Cache.Change.put file.path file.digest (.outline o)).effect (· = file.path)
              (s.memo? file.path)) := by
  have hasked := Cache.consulted_outline? s.cache s.files file.path file.digest
  have hfound := Cache.outline?_eq_memo s.cache s.files file.path file.digest
  change _ = Memo.outline? file.digest (s.memo? file.path) at hfound
  unfold analyze indexAfter memoAfter
  cases hbroken : file.syntaxError with
  | some reason => exact ⟨rfl, .inl ⟨s.cache, .refl _, rfl, rfl⟩⟩
  | none =>
    dsimp only
    generalize s.memo? file.path = m at hfound
    split
    · next o cache log heq =>
      rw [heq] at hasked hfound
      rw [← hfound]
      obtain ⟨log', hlearn⟩ := learn_eq file o ({ s with cache }.say log)
      dsimp only
      split
      · next hlost =>
        rw [hlearn]
        exact ⟨(if_pos hlost).symm, .inl ⟨cache, hasked, rfl, rfl⟩⟩
      · next hlost => exact ⟨(if_neg hlost).symm, .inl ⟨cache, hasked, rfl, rfl⟩⟩
    · next cache log heq =>
      rw [heq] at hasked hfound
      rw [← hfound]
      unfold analyzeAnew
      dsimp only
      cases hparsed : Outline.ofBytes file.content with
      | error e => exact ⟨rfl, .inl ⟨cache, hasked, rfl, rfl⟩⟩
      | ok o =>
        dsimp only
        generalize hput : Cache.putOutline _ _ _ _ _ = after
        obtain ⟨c', files', more⟩ := after
        obtain ⟨log', hlearn⟩ := learn_eq file o
          ({ { s with cache }.say log with cache := c', files := files' }.say more)
        refine ⟨by rw [hlearn]; rfl, .inr ⟨cache, o, hasked, ⟨hbroken, hparsed⟩, ?_, rfl⟩⟩
        rw [hlearn]
        change (c', files') = _
        have happly : (Cache.Change.put file.path file.digest (.outline o)).apply (cache, s.files) =
            ((cache.putOutline s.files file.path file.digest o).1,
              (cache.putOutline s.files file.path file.digest o).2.1) := rfl
        rw [happly, show cache.putOutline s.files file.path file.digest o = _ from hput]

/-- A cache that does not fail goes on like that, and knows what the analysis has found out. -/
theorem memo?_analyze (file : SourceFile) {s : Shared σ} (h : Cache.Steady s.cache s.files) :
    Cache.Steady (s.analyze file).2.cache (s.analyze file).2.files ∧
      (s.analyze file).2.cache.isAvailable = s.cache.isAvailable ∧
      ∀ other, Cache.ToldApart file.path other → (s.analyze file).2.memo? other =
        if s.cache.isAvailable ∧ file.path = other then memoAfter file (s.memo? other)
        else s.memo? other := by
  have havailable {c : Cache} (hc : Cache.Consulted s.cache c) :
      c.isAvailable = s.cache.isAvailable := by
    rw [Cache.isAvailable, hc.store]
    rfl
  obtain ⟨-, ⟨c, hc, hkept, hmemo⟩ | ⟨c, o, hc, houtline, hkept, hmemo⟩⟩ := analyze_cases file s
  · have hcache := congrArg Prod.fst hkept
    have hfiles := congrArg Prod.snd hkept
    change (s.analyze file).2.cache = c at hcache
    change (s.analyze file).2.files = s.files at hfiles
    rw [hcache, hfiles]
    refine ⟨h.congr hc.store, havailable hc, fun other _ => ?_⟩
    have hsame : (s.analyze file).2.memo? other = s.memo? other := by
      rw [memo?, memo?, hcache, hfiles, Cache.memo?_congr hc.store]
    rw [hsame]
    split
    · next heq =>
      rw [← heq.2, hmemo]
    · rfl
  · have hfits : (Cache.Part.outline o).Fits := Outline.fits_of_ofBytes houtline.2
    obtain ⟨hsteady, havailable', hput⟩ := (h.congr hc.store).put file.path file.digest hfits
    have hcache := congrArg Prod.fst hkept
    have hfiles := congrArg Prod.snd hkept
    change (s.analyze file).2.cache = _ at hcache
    change (s.analyze file).2.files = _ at hfiles
    rw [hcache, hfiles]
    refine ⟨hsteady, havailable'.trans (havailable hc), fun other hother => ?_⟩
    have hafter := hput other hother
    rw [havailable hc, Cache.memo?_congr hc.store, ← hcache, ← hfiles] at hafter
    change (s.analyze file).2.memo? other = _ at hafter
    rw [hafter]
    by_cases hstore : s.cache.isAvailable = true
    · rw [if_pos hstore]
      by_cases heq : file.path = other
      · rw [if_pos ⟨hstore, heq⟩, ← heq, hmemo]
        rfl
      · rw [if_neg fun hboth => heq hboth.2]
        exact if_neg heq
    · rw [if_neg hstore, if_neg fun hboth => hstore hboth.1]
      rfl

end Shared

/-! ## The first pass -/

variable {σ : Type}

/-- A cache that works knows after the first pass what the analysis of each file has found out. -/
theorem memo?_analyzeAll {files : List SourceFile} {s : Shared σ}
    (hsteady : Cache.Steady s.cache s.files) (havailable : s.cache.isAvailable = true)
    (hnodup : files.Pairwise fun f g => f.path ≠ g.path) {other : Path}
    (htold : ∀ f ∈ files, Cache.ToldApart f.path other) :
    ((∀ f ∈ files, f.path ≠ other) → (analyzeAll files s).2.memo? other = s.memo? other) ∧
      ∀ f ∈ files, f.path = other →
        (analyzeAll files s).2.memo? other = memoAfter f (s.memo? other) := by
  induction files generalizing s with
  | nil => exact ⟨fun _ => rfl, fun f hf => absurd hf List.not_mem_nil⟩
  | cons file files ih =>
    obtain ⟨hlater, hnodup⟩ := List.pairwise_cons.1 hnodup
    obtain ⟨hsteady', havailable', hmemo⟩ := Shared.memo?_analyze file hsteady
    have hfirst := hmemo other (htold file (.head _))
    obtain ⟨hothers, hown⟩ := ih hsteady' (havailable'.trans havailable) hnodup
      fun f hf => htold f (.tail _ hf)
    change (_ → (analyzeAll files (s.analyze file).2).2.memo? other = _) ∧
      ∀ f ∈ _, _ → (analyzeAll files (s.analyze file).2).2.memo? other = _
    refine ⟨fun hne => ?_, fun f hf hpath => ?_⟩
    · rw [hothers fun f hf => hne f (.tail _ hf), hfirst,
        if_neg fun hboth => hne file (.head _) hboth.2]
    · rcases List.mem_cons.1 hf with rfl | hf
      · rw [hothers fun g hg heq => hlater g hg (hpath.trans heq.symm), hfirst,
          if_pos ⟨havailable, hpath⟩]
      · rw [hown f hf hpath, hfirst, if_neg fun hboth => hlater f hf (hboth.2.trans hpath.symm)]

/-- The first pass changes nothing of an index but its records. -/
theorem exists_index_analyzeAll (files : List SourceFile) (s : Shared σ) :
    ∃ records, (analyzeAll files s).2.index = { s.index with records } := by
  induction files generalizing s with
  | nil => exact ⟨s.index.records, rfl⟩
  | cons file files ih =>
    obtain ⟨records, hfirst⟩ := exists_indexAfter file (s.memo? file.path) s.index
    rw [← (Shared.analyze_cases file s).1] at hfirst
    obtain ⟨last, hrest⟩ := ih (s.analyze file).2
    refine ⟨last, hrest.trans ?_⟩
    rw [hfirst]

/-- The first pass begins with the index rid of the files that are gone, and ends with saving it. -/
theorem exists_prepare (r : Request) (found : Scan.Result) (s : Shared σ) :
    ∃ log, (prepare r found s).2 = (analyzeAll found.files { s with
      index := (s.index.prune (found.files.map (·.path))).2, log }).2.flush :=
  ⟨_, rfl⟩

theorem index_flush (s : Shared σ) : s.flush.index = s.index := by
  unfold Shared.flush
  split <;> rfl

/-- The first pass changes nothing of an index but its records, also with what comes before and after
it. -/
theorem exists_index_prepare (r : Request) (found : Scan.Result) (s : Shared σ) :
    ∃ records, (prepare r found s).2.index = { s.index with records } := by
  obtain ⟨log, hprepare⟩ := exists_prepare r found s
  obtain ⟨items, hprune, -⟩ := Meaning.Index.prune_spec s.index (found.files.map (·.path))
  rw [hprepare, index_flush, hprune]
  exact exists_index_analyzeAll found.files _

/-! ## The places of the translations -/

theorem length_analyzeAll (files : List SourceFile) (s : Shared σ) :
    (analyzeAll files s).1.length = files.length := by
  induction files generalizing s with
  | nil => rfl
  | cons file rest ih =>
    unfold analyzeAll
    dsimp only
    rw [List.length_cons, List.length_cons, ih]

section Assign

variable (r : Request) (found : Scan.Result) {outlines : List (Except String Outline)}

theorem length_placements : (placements r found).1.length = found.files.length :=
  (Layout.place_spec _ _).1.trans (List.length_map _)

/-- Every file gets the place that its path relative to the input gets. -/
theorem places_assign (hlength : outlines.length = found.files.length) :
    (assign r found outlines).map (fun a => (a.file, a.placement)) =
      found.files.zip (placements r found).1 := by
  unfold assign
  rw [List.map_map]
  change (found.files.zip ((placements r found).1.zip outlines)).map (Prod.map id Prod.fst) = _
  rw [← List.zip_map_right,
    List.map_fst_zip (Nat.le_of_eq ((length_placements r found).trans hlength.symm))]

theorem files_assign (hlength : outlines.length = found.files.length) :
    (assign r found outlines).map (·.file) = found.files := by
  have hplaces := congrArg (List.map Prod.fst) (places_assign r found hlength)
  rw [List.map_map, List.map_fst_zip (Nat.le_of_eq (length_placements r found).symm)] at hplaces
  exact hplaces

theorem placements_assign (hlength : outlines.length = found.files.length) :
    (assign r found outlines).map (·.placement) = (placements r found).1 := by
  have hplaces := congrArg (List.map Prod.snd) (places_assign r found hlength)
  rw [List.map_map, List.map_snd_zip (Nat.le_of_eq (length_placements r found))] at hplaces
  exact hplaces

end Assign

/-- Every file is prepared with the place that its path relative to the input gets. -/
theorem places_prepare (r : Request) (found : Scan.Result) (s : Shared σ) :
    (prepare r found s).1.map (fun a => (a.file, a.placement)) =
      found.files.zip (Layout.place r.tools.layout
        (found.files.map fun file => relativeSource r.input file.path)).1 :=
  places_assign r found (length_analyzeAll _ _)

theorem placements_prepare (r : Request) (found : Scan.Result) (s : Shared σ) :
    (prepare r found s).1.map (·.placement) =
      (Layout.place r.tools.layout ((found.files.map (·.path)).map (relativeSource r.input))).1 := by
  rw [List.map_map]
  exact placements_assign r found (length_analyzeAll _ _)

end Run

end Recast
