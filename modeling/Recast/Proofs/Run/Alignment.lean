/-
  Proofs/Run/Alignment.lean --- the index and the cache in the first pass of a run.

  The first pass takes the outline of a file from the cache and leaves the records of the file alone
  if the index has any.  The records of a file in the end are decided by what the stores held about
  it in the beginning (`recordsAfter`, `sound_prepare`).
-/
import Recast.Proofs.Run.Writing

set_option autoImplicit false

namespace Recast.Run

open Cache (Memo)
open Meaning.Index (drafts recordKey generated)

variable {σ : Type}

/-! ## Files that are told apart -/

/-- Files that paths and digests tell apart as far as they differ: their contents, their entries in
the cache and their records in the index. -/
structure Distinct (used : List SourceFile) : Prop where
  contents : ∀ f ∈ used, ∀ g ∈ used, f.digest = g.digest → f.content = g.content
  entries : ∀ f ∈ used, ∀ g ∈ used, Cache.ToldApart f.path g.path
  paths : ∀ f ∈ used, ∀ g ∈ used, f.path.same g.path = true → f.path = g.path
  records : ∀ f ∈ used, ∀ g ∈ used, ∀ o o', f.HasOutline o → g.HasOutline o' →
    ∀ d ∈ drafts f.path.stem o, ∀ d' ∈ drafts g.path.stem o',
      d.key f.path = d'.key g.path → f.path = g.path

/-! ## The records of the index -/

/-- An index whose records are all about outlines of files. -/
structure Sourced (used : List SourceFile) (ix : Meaning.Index) : Prop where
  uniform : ∃ length, ix.Uniform length
  records : ∀ key record, ix.records.items.get? key = some record → ∃ f ∈ used, ∃ o,
    f.HasOutline o ∧ ∃ d ∈ drafts f.path.stem o,
      key = d.key f.path ∧ record.payload.sourcePath = f.path

/-- A cache whose outlines of a file are all outlines of files with the same digests. -/
def Knows (used : List SourceFile) (m : Option Memo) : Prop :=
  ∀ digest o, Memo.outline? digest m = some o → ∃ f ∈ used, f.digest = digest ∧ f.HasOutline o

/-- The records of a file after its analysis. -/
def recordsAfter (e : Meaning.Embedder) (file : SourceFile) (m : Option Memo)
    (before : Table String Meaning.Record) : Table String Meaning.Record :=
  match file.syntaxError with
  | some _ => ∅
  | none =>
    match Memo.outline? file.digest m with
    | some o =>
      if (before.get? (recordKey .file file.path "")).isNone then
        generated e file.path file.path.stem o
      else before
    | none =>
      match Outline.ofBytes file.content with
      | .ok o => generated e file.path file.path.stem o
      | .error _ => ∅

/-- The records of a file that parses, after its analysis. -/
theorem recordsAfter_of_hasOutline {e : Meaning.Embedder} {file : SourceFile} {m : Option Memo}
    {before : Table String Meaning.Record} {o : Outline} (ho : file.HasOutline o)
    (hm : ∀ o', Memo.outline? file.digest m = some o' → o' = o) :
    recordsAfter e file m before =
      if (Memo.outline? file.digest m).isSome = true ∧
        (before.get? (recordKey .file file.path "")).isSome = true then before
      else generated e file.path file.path.stem o := by
  unfold recordsAfter
  rw [ho.1, ho.2]
  cases hcached : Memo.outline? file.digest m with
  | none => rfl
  | some o' =>
    rw [hm o' hcached]
    cases before.get? (recordKey .file file.path "") <;> rfl

/-- A file that does not parse has no records after its analysis. -/
theorem recordsAfter_of_not_hasOutline {e : Meaning.Embedder} {file : SourceFile} {m : Option Memo}
    {before : Table String Meaning.Record} (h : ∀ o, ¬file.HasOutline o)
    (hm : file.syntaxError = none → ∀ o, Memo.outline? file.digest m ≠ some o) :
    recordsAfter e file m before = ∅ := by
  unfold recordsAfter
  cases hbroken : file.syntaxError with
  | some reason => rfl
  | none =>
    rw [Option.eq_none_iff_forall_ne_some.2 (hm hbroken)]
    cases hparsed : Outline.ofBytes file.content with
    | ok o => exact absurd ⟨hbroken, hparsed⟩ (h o)
    | error e => rfl

section Index

variable {used : List SourceFile} {file : SourceFile} {m : Option Memo} {ix : Meaning.Index}

/-- The outline that the cache knows is that of the file. -/
theorem Knows.hasOutline (hdistinct : Distinct used) (hfile : file ∈ used) (h : Knows used m)
    (hparses : file.syntaxError = none) {o : Outline}
    (hknown : Memo.outline? file.digest m = some o) : file.HasOutline o := by
  obtain ⟨g, hg, hdigest, houtline⟩ := h _ _ hknown
  refine ⟨hparses, ?_⟩
  rw [hdistinct.contents file hfile g hg hdigest.symm]
  exact houtline.2

theorem Sourced.apart (hdistinct : Distinct used) (hfile : file ∈ used) (h : Sourced used ix)
    {o : Outline} (houtline : file.HasOutline o) {d : Meaning.Index.Draft}
    (hd : d ∈ drafts file.path.stem o) {record : Meaning.Record}
    (hget : ix.records.items.get? (d.key file.path) = some record) :
    record.payload.sourcePath = file.path := by
  obtain ⟨g, hg, o', houtline', d', hd', hkey, hsource⟩ := h.records _ _ hget
  rw [hsource, hdistinct.records file hfile g hg o o' houtline houtline' d hd d' hd' hkey]

/-- Whether the index has lost a file can be told from the records of the file. -/
theorem fileMeaning?_eq_none_iff (hdistinct : Distinct used) (hfile : file ∈ used)
    (h : Sourced used ix) {o : Outline} (houtline : file.HasOutline o) :
    ix.fileMeaning? file.path = none ↔
      (ix.records.about file.path).get? (recordKey .file file.path "") = none := by
  rw [Meaning.Index.fileMeaning?, Option.map_eq_none_iff, Meaning.Records.get?,
    Option.map_eq_none_iff]
  refine ⟨fun hnone => ?_, fun hnone => ?_⟩
  · refine Option.eq_none_iff_forall_ne_some.2 fun record hrecord => ?_
    rw [(Meaning.Index.get?_about.1 hrecord).1] at hnone
    cases hnone
  · refine Option.eq_none_iff_forall_ne_some.2 fun record hrecord => ?_
    have hsource := h.apart hdistinct hfile houtline (List.mem_cons_self ..) hrecord
    have habout := Meaning.Index.get?_about.2
      ⟨hrecord, show record.payload.sourcePath.same file.path = true by
        rw [hsource]; exact Path.same_refl _⟩
    rw [hnone] at habout
    cases habout

theorem Sourced.congr {jx : Meaning.Index} (h : Sourced used ix)
    (hembedder : jx.embedder = ix.embedder) (hrecords : jx.records = ix.records) :
    Sourced used jx := by
  obtain ⟨length, huniform⟩ := h.uniform
  refine ⟨⟨length, fun text vector => ?_, ?_⟩, ?_⟩
  · rw [hembedder]
    exact huniform.embedded text vector
  · rw [hrecords]
    exact huniform.stored
  · rw [hrecords]
    exact h.records

theorem Sourced.removeFile (h : Sourced used ix) (path : Path) :
    Sourced used (ix.removeFile path).2 := by
  obtain ⟨length, huniform⟩ := h.uniform
  exact ⟨⟨length, huniform.removeFile path⟩, fun key record hget =>
    h.records key record (Meaning.Index.get?_removeFile.1 hget).1⟩

theorem Sourced.prune (h : Sourced used ix) (keep : List Path) :
    Sourced used (ix.prune keep).2 := by
  obtain ⟨length, huniform⟩ := h.uniform
  rw [ix.prune_eq_without]
  exact ⟨⟨length, huniform.without _⟩, fun key record hget =>
    h.records key record (Meaning.Index.get?_without.1 hget).1⟩

/-- A file that is indexed gets the records of its outline, and those of other files stay. -/
theorem Sourced.addOutline (hdistinct : Distinct used) (hfile : file ∈ used) (h : Sourced used ix)
    (henabled : ix.enabled = true) {o : Outline} (houtline : file.HasOutline o) :
    Sourced used (ix.addOutline file.path file.path.stem o).2 ∧
      ∀ other, (ix.addOutline file.path file.path.stem o).2.records.about other =
        if file.path.same other then generated ix.embedder file.path file.path.stem o
        else ix.records.about other := by
  obtain ⟨length, huniform⟩ := h.uniform
  have hapart : ix.Apart file.path
      (Meaning.Index.entriesOf ix.embedder file.path (drafts file.path.stem o)) := by
    intro e he record hget
    obtain ⟨d, hd, hkey, -, -⟩ := Meaning.Index.exists_draft_of_mem he
    rw [hkey] at hget
    rw [h.apart hdistinct hfile houtline hd hget]
    exact Path.same_refl _
  have habout := Meaning.Index.about_addOutline huniform henabled hapart
  refine ⟨⟨⟨length, (Meaning.Index.addOutline_of_uniform huniform henabled _ _ _).2⟩,
    fun key record hget => ?_⟩, habout⟩
  have hown := Meaning.Index.get?_about.2 ⟨hget, Path.same_refl record.payload.sourcePath⟩
  rw [habout] at hown
  split at hown
  · have hmem := Table.mem_of_mem_ofList ((Table.get?_eq_some_iff _).1 hown)
    obtain ⟨d, hd, hkey, hpayload, -⟩ := Meaning.Index.exists_draft_of_mem hmem
    exact ⟨file, hfile, o, houtline, d, hd, hkey, congrArg Meaning.Payload.sourcePath hpayload⟩
  · exact h.records key record (Meaning.Index.get?_about.1 hown).1

/-- The analysis of a file changes the records of that file only. -/
theorem about_indexAfter (hdistinct : Distinct used) (hfile : file ∈ used) (h : Sourced used ix)
    (henabled : ix.enabled = true) (hm : Knows used m) :
    Sourced used (indexAfter file m ix) ∧ ∀ other, (indexAfter file m ix).records.about other =
      if file.path.same other then
        recordsAfter ix.embedder file m (ix.records.about file.path)
      else ix.records.about other := by
  unfold indexAfter recordsAfter
  cases hbroken : file.syntaxError with
  | some reason => exact ⟨h.removeFile _, Meaning.Index.about_removeFile ix file.path⟩
  | none =>
    cases hknown : Memo.outline? file.digest m with
    | some o =>
      have houtline := hm.hasOutline hdistinct hfile hbroken hknown
      dsimp only
      simp only [Option.isNone_iff_eq_none,
        fileMeaning?_eq_none_iff hdistinct hfile h houtline]
      split
      · exact h.addOutline hdistinct hfile henabled houtline
      · refine ⟨h, fun other => ?_⟩
        split
        · next hsame => exact (Meaning.Index.about_congr hsame).symm
        · rfl
    | none =>
      dsimp only
      cases hparsed : Outline.ofBytes file.content with
      | ok o => exact h.addOutline hdistinct hfile henabled ⟨hbroken, hparsed⟩
      | error e => exact ⟨h.removeFile _, Meaning.Index.about_removeFile ix file.path⟩

end Index

/-! ## The first pass -/

/-- A state of a run whose stores hold nothing but what outlines of files give. -/
structure Sound (used : List SourceFile) (s : Shared σ) : Prop where
  known : ∀ f ∈ used, Knows used (s.memo? f.path)
  sourced : Sourced used s.index

/-- A state of a run whose index holds for each file the records of the outline that the cache knows,
if it has any. -/
def InStep (used : List SourceFile) (s : Shared σ) : Prop :=
  ∀ f ∈ used, ∀ digest o, Memo.outline? digest (s.memo? f.path) = some o →
    (s.index.records.about f.path).get? (recordKey .file f.path "") ≠ none →
      s.index.records.about f.path = generated s.index.embedder f.path f.path.stem o

theorem outline?_put (file : SourceFile) (m : Option Memo) {digest : Digest} {o o' : Outline}
    (h : Memo.outline? digest
      ((Cache.Change.put file.path file.digest (.outline o)).effect (· = file.path) m) = some o') :
    digest = file.digest ∧ o' = o := by
  rw [Memo.outline?, Cache.about_effect] at h
  dsimp only at h
  rw [if_pos rfl] at h
  split at h
  · next hdigest =>
    cases h
    exact ⟨hdigest.symm, rfl⟩
  · cases h

/-- A memo is about content with one digest. -/
theorem outline?_unique {m : Option Memo} {digest digest' : Digest} {o o' : Outline}
    (h : Memo.outline? digest m = some o) (h' : Memo.outline? digest' m = some o') : o = o' := by
  obtain ⟨memo, hmemo, ho⟩ := Option.bind_eq_some_iff.1 h
  obtain ⟨memo', hmemo', ho'⟩ := Option.bind_eq_some_iff.1 h'
  have hsame := (Option.filter_eq_some_iff.1 hmemo).1.symm.trans
    (Option.filter_eq_some_iff.1 hmemo').1
  cases hsame
  exact Option.some.inj (ho.symm.trans ho')

/-- What the cache knows about a file after its analysis are outlines of files. -/
theorem Knows.memoAfter {used : List SourceFile} {file : SourceFile} {m : Option Memo}
    (hfile : file ∈ used) (h : Knows used m) : Knows used (memoAfter file m) := by
  unfold Run.memoAfter
  cases hbroken : file.syntaxError with
  | some reason => exact h
  | none =>
    cases Memo.outline? file.digest m with
    | some o => exact h
    | none =>
      dsimp only
      cases hparsed : Outline.ofBytes file.content with
      | error e => exact h
      | ok o =>
        intro digest o' hknown
        obtain ⟨rfl, rfl⟩ := outline?_put file m hknown
        exact ⟨file, hfile, rfl, hbroken, hparsed⟩

/-- The records of a file are in step with what the cache knows about it, after its analysis, if
they were before. -/
theorem inStep_recordsAfter {e : Meaning.Embedder} {file : SourceFile} {m : Option Memo}
    {before : Table String Meaning.Record}
    (h : ∀ digest o, Memo.outline? digest m = some o →
      before.get? (recordKey .file file.path "") ≠ none →
        before = generated e file.path file.path.stem o)
    {digest : Digest} {o : Outline} (hknown : Memo.outline? digest (memoAfter file m) = some o)
    (hany : (recordsAfter e file m before).get? (recordKey .file file.path "") ≠ none) :
    recordsAfter e file m before = generated e file.path file.path.stem o := by
  unfold memoAfter at hknown
  unfold recordsAfter at hany ⊢
  cases hbroken : file.syntaxError with
  | some reason =>
    rw [hbroken] at hany
    exact absurd rfl hany
  | none =>
    rw [hbroken] at hknown hany
    cases hcached : Memo.outline? file.digest m with
    | some o' =>
      rw [hcached] at hknown hany
      dsimp only at hknown hany ⊢
      have heq := outline?_unique hknown hcached
      split
      · rw [heq]
      · next hthere =>
        rw [if_neg hthere] at hany
        exact h digest o hknown hany
    | none =>
      rw [hcached] at hknown hany
      cases hparsed : Outline.ofBytes file.content with
      | error error =>
        rw [hparsed] at hany
        exact absurd rfl hany
      | ok o' =>
        rw [hparsed] at hknown
        rw [(outline?_put file m hknown).2]

section Pass

variable {used : List SourceFile} {s : Shared σ}

/-- The analysis of a file keeps a cache that knows outlines of files only. -/
theorem knows_analyze (hdistinct : Distinct used) {file : SourceFile} (hfile : file ∈ used)
    (hsteady : Cache.Steady s.cache s.files) (h : ∀ f ∈ used, Knows used (s.memo? f.path)) :
    ∀ f ∈ used, Knows used ((s.analyze file).2.memo? f.path) := by
  intro f hf
  rw [(Shared.memo?_analyze file hsteady).2.2 _ (hdistinct.entries file hfile f hf)]
  split
  · exact (h f hf).memoAfter hfile
  · exact h f hf

/-- The first pass keeps a cache that knows outlines of files only. -/
theorem knows_analyzeAll (hdistinct : Distinct used) {files : List SourceFile}
    (hfiles : ∀ f ∈ files, f ∈ used) (hsteady : Cache.Steady s.cache s.files)
    (h : ∀ f ∈ used, Knows used (s.memo? f.path)) :
    Cache.Steady (analyzeAll files s).2.cache (analyzeAll files s).2.files ∧
      ∀ f ∈ used, Knows used ((analyzeAll files s).2.memo? f.path) := by
  induction files generalizing s with
  | nil => exact ⟨hsteady, h⟩
  | cons file files ih =>
    exact ih (fun f hf => hfiles f (.tail _ hf)) (Shared.memo?_analyze file hsteady).1
      (knows_analyze hdistinct (hfiles file (.head _)) hsteady h)

/-- The analysis of a file keeps both stores sound and in step. -/
theorem sound_analyze (hdistinct : Distinct used) {file : SourceFile} (hfile : file ∈ used)
    (hsteady : Cache.Steady s.cache s.files) (henabled : s.index.enabled = true)
    (h : Sound used s) :
    Sound used (s.analyze file).2 ∧ (InStep used s → InStep used (s.analyze file).2) ∧
      ∀ other, (s.analyze file).2.index.records.about other =
        if file.path.same other then
          recordsAfter s.index.embedder file (s.memo? file.path) (s.index.records.about file.path)
        else s.index.records.about other := by
  obtain ⟨-, -, hmemo⟩ := Shared.memo?_analyze file hsteady
  have hindex := (Shared.analyze_cases file s).1
  obtain ⟨hsourced, habout⟩ :=
    about_indexAfter hdistinct hfile h.sourced henabled (h.known file hfile)
  rw [← hindex] at hsourced habout
  refine ⟨⟨knows_analyze hdistinct hfile hsteady h.known, hsourced⟩,
    fun hstep f hf digest o hknown hany => ?_, habout⟩
  have hembedder : (s.analyze file).2.index.embedder = s.index.embedder := by
    obtain ⟨records, hrecords⟩ := exists_indexAfter file (s.memo? file.path) s.index
    rw [hindex, hrecords]
  rw [hmemo _ (hdistinct.entries file hfile f hf)] at hknown
  rw [habout] at hany ⊢
  rw [hembedder]
  by_cases heq : file.path = f.path
  · rw [← heq] at hknown hany ⊢
    rw [if_pos (Path.same_refl _)] at hany ⊢
    by_cases hstore : s.cache.isAvailable = true
    · rw [if_pos ⟨hstore, rfl⟩] at hknown
      exact inStep_recordsAfter (hstep file hfile) hknown hany
    · rw [if_neg fun hboth => hstore hboth.1, Shared.memo?,
        Cache.Steady.memo?_of_missing (Bool.eq_false_iff.2 hstore)] at hknown
      cases hknown
  · have hsame : ¬file.path.same f.path = true := fun hsame =>
      heq (hdistinct.paths file hfile f hf hsame)
    rw [if_neg fun hboth => heq hboth.2] at hknown
    rw [if_neg hsame] at hany ⊢
    exact hstep f hf digest o hknown hany

/-- The first pass keeps both stores sound and in step.  The records of a file in the end are decided
by what the stores held about it in the beginning. -/
theorem sound_analyzeAll (hdistinct : Distinct used) {files : List SourceFile}
    (hfiles : ∀ f ∈ files, f ∈ used) (hnodup : files.Pairwise fun f g => f.path ≠ g.path)
    (hsteady : Cache.Steady s.cache s.files) (henabled : s.index.enabled = true)
    (h : Sound used s) :
    Sound used (analyzeAll files s).2 ∧ (InStep used s → InStep used (analyzeAll files s).2) ∧
      (∀ f ∈ files, (analyzeAll files s).2.index.records.about f.path =
        recordsAfter s.index.embedder f (s.memo? f.path) (s.index.records.about f.path)) ∧
      ∀ other, (∀ f ∈ files, f.path.same other = false) →
        (analyzeAll files s).2.index.records.about other = s.index.records.about other := by
  induction files generalizing s with
  | nil => exact ⟨h, id, nofun, fun _ _ => rfl⟩
  | cons file files ih =>
    have hfile := hfiles file (.head _)
    obtain ⟨hlater, hnodup⟩ := List.pairwise_cons.1 hnodup
    obtain ⟨hsteady', -, hmemo⟩ := Shared.memo?_analyze file hsteady
    obtain ⟨hsound, hstep, habout⟩ := sound_analyze hdistinct hfile hsteady henabled h
    have hindex := (Shared.analyze_cases file s).1
    obtain ⟨records, hsame⟩ := exists_indexAfter file (s.memo? file.path) s.index
    rw [← hindex] at hsame
    have henabled' : (s.analyze file).2.index.enabled = true := by
      rw [hsame]
      exact henabled
    have hembedder : (s.analyze file).2.index.embedder = s.index.embedder := by rw [hsame]
    obtain ⟨hsoundEnd, hstepEnd, hrecords, hothers⟩ :=
      ih (fun f hf => hfiles f (.tail _ hf)) hnodup hsteady' henabled' hsound
    have hne {f : SourceFile} (hf : f ∈ files) : ¬file.path.same f.path = true := fun heq =>
      hlater f hf (hdistinct.paths file hfile f (hfiles f (.tail _ hf)) heq)
    refine ⟨hsoundEnd, fun hin => hstepEnd (hstep hin), ?_, ?_⟩
    · intro f hf
      rcases List.mem_cons.1 hf with rfl | hf
      · refine (hothers f.path fun g hg => ?_).trans ?_
        · rw [Path.same_comm]
          exact Bool.eq_false_iff.2 (hne hg)
        · rw [habout, if_pos (Path.same_refl _)]
      · refine (hrecords f hf).trans ?_
        rw [hembedder, hmemo _ (hdistinct.entries file hfile f (hfiles f (.tail _ hf))),
          if_neg fun hboth => hlater f hf hboth.2, habout, if_neg (hne hf)]
    · intro other hother
      refine (hothers other fun f hf => hother f (.tail _ hf)).trans ?_
      rw [habout, if_neg (Bool.eq_false_iff.1 (hother file (.head _)))]

theorem any_map_path {files : List SourceFile} {path : Path} :
    (files.map (·.path)).any path.same = true ↔ ∃ f ∈ files, f.path.same path = true := by
  simp only [List.any_map, List.any_eq_true, Function.comp_apply, Path.same_comm path]

theorem fades_flush (hfiled : Filed s.index) {files : List SourceFile}
    (hend : Cache.Steady (analyzeAll files s).2.cache (analyzeAll files s).2.files) :
    Fades used (analyzeAll files s).2 (analyzeAll files s).2.flush := by
  obtain ⟨records, hindex⟩ := exists_index_analyzeAll files s
  refine .of_writes hend.placed (writes_flush ?_)
  rw [hindex]
  exact hfiled

/-- What the cache knows after the first pass are outlines of files. -/
theorem knows_prepare (hdistinct : Distinct used) (r : Request) {found : Scan.Result}
    (hfiles : ∀ f ∈ found.files, f ∈ used) (hsteady : Cache.Steady s.cache s.files)
    (hfiled : Filed s.index) (h : ∀ f ∈ used, Knows used (s.memo? f.path)) :
    (∀ f ∈ used, Knows used ((prepare r found s).2.memo? f.path)) ∧
      Cache.Placed (prepare r found s).2.cache (prepare r found s).2.files := by
  obtain ⟨log, hprepare⟩ := exists_prepare r found s
  obtain ⟨items, hprune, -⟩ := Meaning.Index.prune_spec s.index (found.files.map (·.path))
  rw [hprepare, hprune]
  generalize hbegun : ({ s with
    index := { s.index with records := { s.index.records with items } }, log } : Shared σ) = begun
  have hsteady' : Cache.Steady begun.cache begun.files := by
    rw [← hbegun]
    exact hsteady
  have hknown : ∀ f ∈ used, Knows used (begun.memo? f.path) := by
    rw [← hbegun]
    exact h
  have hfiled' : Filed begun.index := by
    rw [← hbegun]
    exact hfiled
  obtain ⟨hend, hknownEnd⟩ := knows_analyzeAll hdistinct hfiles hsteady' hknown
  have hfades : Fades used _ (analyzeAll found.files begun).2.flush := fades_flush hfiled' hend
  exact ⟨fun f hf digest o ho => hknownEnd f hf digest o (hfades.outlines f hf digest o ho),
    hfades.placed⟩

/-- Dropping the records of files that are gone leaves the others in step. -/
theorem InStep.pruned (hin : InStep used s) {begun : Shared σ} {keep : List Path}
    (hmemo : ∀ path, begun.memo? path = s.memo? path)
    (hindex : begun.index = (s.index.prune keep).2) : InStep used begun := by
  obtain ⟨items, hprune, -⟩ := Meaning.Index.prune_spec s.index keep
  have hembedder : begun.index.embedder = s.index.embedder := by rw [hindex, hprune]
  intro f hf digest o hknown hany
  rw [hmemo] at hknown
  rw [hindex, Meaning.Index.about_prune] at hany
  rw [hembedder, hindex, Meaning.Index.about_prune]
  split at hany
  · next hkept =>
    rw [if_pos hkept]
    exact hin f hf digest o hknown hany
  · exact absurd rfl hany

/-- What the first pass makes of stores that are sound. -/
theorem sound_prepare (hdistinct : Distinct used) (r : Request) {found : Scan.Result}
    (hfiles : ∀ f ∈ found.files, f ∈ used)
    (honce : found.files.Pairwise fun f g => f.path ≠ g.path)
    (hsteady : Cache.Steady s.cache s.files) (hfiled : Filed s.index)
    (henabled : s.index.enabled = true) (h : Sound used s) :
    Sourced used (prepare r found s).2.index ∧
      (InStep used s → InStep used (prepare r found s).2) ∧
      (prepare r found s).2.index.embedder = s.index.embedder ∧
      (∀ f ∈ found.files, (prepare r found s).2.index.records.about f.path =
        recordsAfter s.index.embedder f (s.memo? f.path) (s.index.records.about f.path)) ∧
      ∀ other, (∀ f ∈ found.files, f.path.same other = false) →
        (prepare r found s).2.index.records.about other = ∅ := by
  obtain ⟨log, hprepare⟩ := exists_prepare r found s
  obtain ⟨items, hprune, -⟩ := Meaning.Index.prune_spec s.index (found.files.map (·.path))
  have habout := Meaning.Index.about_prune s.index (found.files.map (·.path))
  have hsourced := h.sourced.prune (found.files.map (·.path))
  rw [hprepare]
  generalize hbegun : ({ s with
    index := (s.index.prune (found.files.map (·.path))).2, log } : Shared σ) = begun
  have hindex : begun.index = (s.index.prune (found.files.map (·.path))).2 := by rw [← hbegun]
  have hmemo (path : Path) : begun.memo? path = s.memo? path := by
    rw [← hbegun]
    rfl
  have hsteady' : Cache.Steady begun.cache begun.files := by
    rw [← hbegun]
    exact hsteady
  have hfiled' : Filed begun.index := by
    rw [hindex, hprune]
    exact hfiled
  have henabled' : begun.index.enabled = true := by
    rw [hindex, hprune]
    exact henabled
  have hembedder : begun.index.embedder = s.index.embedder := by rw [hindex, hprune]
  rw [← hindex] at hsourced habout
  have hsound : Sound used begun := ⟨fun f hf => hmemo f.path ▸ h.known f hf, hsourced⟩
  obtain ⟨hsoundEnd, hstepEnd, hrecords, hothers⟩ :=
    sound_analyzeAll hdistinct hfiles honce hsteady' henabled' hsound
  obtain ⟨records, hend⟩ := exists_index_analyzeAll found.files begun
  have hfades : Fades used _ (analyzeAll found.files begun).2.flush := fades_flush hfiled'
    (knows_analyzeAll hdistinct hfiles hsteady' hsound.known).1
  generalize analyzeAll found.files begun = pass at *
  rw [hfades.index]
  refine ⟨hsoundEnd.sourced, fun hin f hf digest o ho => ?_, ?_, fun f hf => ?_,
    fun other hother => ?_⟩
  · rw [hfades.index]
    exact hstepEnd (hin.pruned hmemo hindex) f hf digest o (hfades.outlines f hf digest o ho)
  · rw [hend, ← hembedder]
  · rw [hrecords f hf, hmemo, habout, hembedder, if_pos]
    exact any_map_path.2 ⟨f, hf, Path.same_refl _⟩
  · rw [hothers other hother, habout, if_neg]
    rw [any_map_path]
    rintro ⟨f, hf, hsame⟩
    rw [hother f hf] at hsame
    cases hsame

end Pass

end Recast.Run
