/-
  Proofs/Run/Sessions.lean --- the index of runs one after the other over one output directory.

  A run opens the cache and the index as earlier runs have left them, or new ones.  After its first
  pass the records of each file are those of its outline exactly if the records that were left alone
  were (`aligned_iff`).  They are as long as every run finds both stores as one earlier run has left
  them, and they need not be otherwise (`aligned_fails_unindexed`).
-/
import Recast.Inference.Programmed
import Recast.Proofs.Run.Alignment
import Recast.Proofs.Run.Housed

set_option autoImplicit false

namespace Recast.Run

open Cache (Memo)
open Meaning.Index (drafts recordKey generated)

variable {σ : Type}

/-! ## Runs one after the other -/

/-- A run with files that were found, and the stores that it has opened. -/
structure Session (σ : Type) where
  service : Service σ
  validator : Assessment.Validator
  request : Request
  found : Scan.Result
  opened : Shared σ

/-- The outline that the cache serves for a file with content of a digest. -/
def Shared.served (s : Shared σ) (path : Path) (digest : Digest) : Option Outline :=
  (s.cache.outline? s.files path digest).1

theorem Shared.served_eq (s : Shared σ) (path : Path) (digest : Digest) :
    s.served path digest = Memo.outline? digest (s.memo? path) :=
  Cache.outline?_eq_memo s.cache s.files path digest

namespace Session

/-- The state after the first pass. -/
def analyzed (x : Session σ) : Shared σ := (prepare x.request x.found x.opened).2

/-- The state at the end of the run. -/
def ended (x : Session σ) : Shared σ :=
  (runOn x.service x.validator x.request x.found x.opened).2

/-- A run in which no file is found twice and nothing fails: the cache has no store or one that
works, and the index counts words. -/
structure Ready (x : Session σ) : Prop where
  once : x.found.files.Pairwise fun f g => f.path ≠ g.path
  steady : Cache.Steady x.opened.cache x.opened.files
  hashing : ∃ dimension, x.opened.index.embedder = .hashing dimension
  filed : Filed x.opened.index

/-- A cache that is opened with nothing in it. -/
def CacheNew (x : Session σ) : Prop := ∀ path digest, x.opened.served path digest = none

/-- A cache that is opened as an earlier run has left it. -/
def CacheFrom (x y : Session σ) : Prop :=
  ∀ path digest, x.opened.served path digest = y.ended.served path digest

/-- An index that is opened with nothing in it. -/
def IndexNew (x : Session σ) : Prop := x.opened.index.records.items = ∅

/-- An index that is opened as an earlier run has left it. -/
structure IndexFrom (x y : Session σ) : Prop where
  enabled : y.opened.index.enabled = true
  embedder : x.opened.index.embedder = y.ended.index.embedder
  records : x.opened.index.records = y.ended.index.records

/-- A run that opens each of its stores with nothing in it or as an earlier run has left it. -/
structure Follows (earlier : List (Session σ)) (x : Session σ) : Prop where
  ready : x.Ready
  cache : x.CacheNew ∨ ∃ y ∈ earlier, x.CacheFrom y
  index : x.IndexNew ∨ ∃ y ∈ earlier, x.IndexFrom y

/-- A run that, if it finds something in both of its stores, opens both as the same run has left
them. -/
def FollowsOne (earlier : List (Session σ)) (x : Session σ) : Prop :=
  x.CacheNew ∨ x.IndexNew ∨ ∃ y ∈ earlier, x.CacheFrom y ∧ x.IndexFrom y

/-- Runs, the latest first, each of which has to do with those before it. -/
inductive Sequence (P : List (Session σ) → Session σ → Prop) : List (Session σ) → Prop where
  | nil : Sequence P []
  | cons {earlier : List (Session σ)} {x : Session σ} (before : Sequence P earlier)
      (next : P earlier x) : Sequence P (x :: earlier)

/-- The files that runs have found. -/
def files (runs : List (Session σ)) : List SourceFile := runs.flatMap fun x => x.found.files

/-- After the first pass the records of each file that parses are those of its outline, and there are
no other ones. -/
structure Aligned (x : Session σ) : Prop where
  parsed : ∀ file ∈ x.found.files, ∀ o, file.HasOutline o →
    x.analyzed.index.records.about file.path =
      generated x.opened.index.embedder file.path file.path.stem o
  others : ∀ path, (∀ file ∈ x.found.files, file.path.same path = true → ∀ o, ¬file.HasOutline o) →
    x.analyzed.index.records.about path = ∅

/-- A file whose outline the first pass takes from the cache and whose records it leaves alone. -/
def Reuses (x : Session σ) (file : SourceFile) : Prop :=
  x.opened.served file.path file.digest ≠ none ∧ x.opened.index.fileMeaning? file.path ≠ none

section Sequences

variable {used : List SourceFile} {x : Session σ} {earlier : List (Session σ)}

/-- What a run leaves to later ones. -/
structure Leaves (used : List SourceFile) (x : Session σ) : Prop where
  known : ∀ f ∈ used, Knows used (x.ended.memo? f.path)
  sourced : x.opened.index.enabled = true → Sourced used x.ended.index

theorem sourced_new (hx : x.Ready) (h : x.IndexNew) : Sourced used x.opened.index := by
  obtain ⟨dimension, hembedder⟩ := hx.hashing
  rw [IndexNew] at h
  refine ⟨⟨max dimension 1, fun text vector hembed => ?_, ?_⟩, ?_⟩
  · rw [hembedder] at hembed
    cases hembed
    exact Meaning.length_embed dimension text
  · rw [h]
    exact nofun
  · rw [h]
    exact nofun

/-- A run opens stores that are sound, if those before it left them so. -/
theorem sound_opened (hx : Follows earlier x) (h : ∀ y ∈ earlier, Leaves used y) :
    Sound used x.opened := by
  refine ⟨fun f hf digest o ho => ?_, ?_⟩
  · rw [← Shared.served_eq] at ho
    rcases hx.cache with hnew | ⟨y, hy, hfrom⟩
    · rw [hnew] at ho
      cases ho
    · rw [hfrom, Shared.served_eq] at ho
      exact (h y hy).known f hf digest o ho
  · rcases hx.index with hnew | ⟨y, hy, hfrom⟩
    · exact sourced_new hx.ready hnew
    · exact ((h y hy).sourced hfrom.enabled).congr hfrom.embedder hfrom.records

theorem inStep_opened (hx : FollowsOne earlier x)
    (h : ∀ y ∈ earlier, y.opened.index.enabled = true → InStep used y.ended) :
    InStep used x.opened := by
  intro f hf digest o ho hany
  rcases hx with hnew | hnew | ⟨y, hy, hcache, hindex⟩
  · rw [← Shared.served_eq, hnew] at ho
    cases ho
  · rw [IndexNew] at hnew
    refine absurd (Option.eq_none_iff_forall_ne_some.2 fun record hrecord => ?_) hany
    have hget := (Meaning.Index.get?_about.1 hrecord).1
    rw [hnew] at hget
    cases hget
  · rw [← Shared.served_eq, hcache, Shared.served_eq] at ho
    rw [hindex.records] at hany ⊢
    rw [hindex.embedder]
    exact h y hy hindex.enabled f hf digest o ho hany

/-- A run leaves its stores sound, and in step if it has opened them like that. -/
theorem leaves_of_opened (hdistinct : Distinct used) (hfiles : ∀ f ∈ x.found.files, f ∈ used)
    (hx : x.Ready) (h : Sound used x.opened) :
    Leaves used x ∧ (x.opened.index.enabled = true → InStep used x.opened →
      InStep used x.ended) := by
  obtain ⟨hknown, hplaced⟩ :=
    knows_prepare hdistinct x.request hfiles hx.steady hx.filed h.known
  have hfades : Fades used x.analyzed x.ended :=
    fades_runOn x.service x.validator x.request
      (fun f hf g hg => hdistinct.entries f (hfiles f hf) g hg) hplaced
  have hprepare (henabled : x.opened.index.enabled = true) :=
    sound_prepare hdistinct x.request hfiles hx.once hx.steady hx.filed henabled h
  refine ⟨⟨fun f hf digest o ho => hknown f hf digest o (hfades.outlines f hf digest o ho),
    fun henabled => ?_⟩, fun henabled hin f hf digest o ho => ?_⟩
  · rw [hfades.index]
    exact (hprepare henabled).1
  · rw [hfades.index]
    exact (hprepare henabled).2.1 hin f hf digest o (hfades.outlines f hf digest o ho)

theorem leaves_of_sequence (hdistinct : Distinct used) {runs : List (Session σ)}
    (h : Sequence Follows runs) (hfiles : ∀ f ∈ files runs, f ∈ used) :
    ∀ y ∈ runs, Leaves used y := by
  induction h with
  | nil => exact fun y hy => absurd hy List.not_mem_nil
  | @cons earlier x before next ih =>
    have hearlier := ih fun f hf => hfiles f (List.mem_append_right _ hf)
    intro y hy
    rcases List.mem_cons.1 hy with rfl | hy
    · exact (leaves_of_opened hdistinct (fun f hf => hfiles f (List.mem_append_left _ hf))
        next.ready (sound_opened next hearlier)).1
    · exact hearlier y hy

theorem inStep_of_sequence (hdistinct : Distinct used) {runs : List (Session σ)}
    (h : Sequence Follows runs) (hone : Sequence FollowsOne runs)
    (hfiles : ∀ f ∈ files runs, f ∈ used) :
    ∀ y ∈ runs, y.opened.index.enabled = true → InStep used y.ended := by
  induction h with
  | nil => exact fun y hy => absurd hy List.not_mem_nil
  | @cons earlier x before next ih =>
    have hrest : ∀ f ∈ files earlier, f ∈ used := fun f hf =>
      hfiles f (List.mem_append_right _ hf)
    cases hone with
    | cons hbefore hnext =>
      have hearlier := ih hbefore hrest
      intro y hy
      rcases List.mem_cons.1 hy with rfl | hy
      · intro henabled
        exact (leaves_of_opened hdistinct (fun f hf => hfiles f (List.mem_append_left _ hf))
          next.ready (sound_opened next (leaves_of_sequence hdistinct before hrest))).2 henabled
            (inStep_opened hnext hearlier)
      · exact hearlier y hy

end Sequences

section Aligned

variable {x : Session σ} {earlier : List (Session σ)}

theorem sequence_cons {P : List (Session σ) → Session σ → Prop} (h : Sequence P (x :: earlier)) :
    Sequence P earlier ∧ P earlier x := by
  cases h with
  | cons before next => exact ⟨before, next⟩

theorem sound_of_sequence (h : Sequence Follows (x :: earlier))
    (hdistinct : Distinct (files (x :: earlier))) : Sound (files (x :: earlier)) x.opened := by
  obtain ⟨hbefore, hnext⟩ := sequence_cons h
  exact sound_opened hnext
    (leaves_of_sequence hdistinct hbefore fun f hf => List.mem_append_right _ hf)

/-- Whether a file is left alone can be told from the stores that the run opens. -/
theorem reuses_iff {used : List SourceFile} (hdistinct : Distinct used) (h : Sound used x.opened)
    {file : SourceFile} (hfile : file ∈ used) {o : Outline} (ho : file.HasOutline o) :
    x.Reuses file ↔ (Memo.outline? file.digest (x.opened.memo? file.path)).isSome = true ∧
      ((x.opened.index.records.about file.path).get?
        (recordKey .file file.path "")).isSome = true := by
  rw [Reuses, Shared.served_eq, Option.isSome_iff_ne_none, Option.isSome_iff_ne_none]
  exact and_congr_right fun _ => not_congr (fileMeaning?_eq_none_iff hdistinct hfile h.sourced ho)

theorem aligned_iff_of_sequence (h : Sequence Follows (x :: earlier))
    (hdistinct : Distinct (files (x :: earlier))) (henabled : x.opened.index.enabled = true) :
    x.Aligned ↔ ∀ file ∈ x.found.files, ∀ o, file.HasOutline o → x.Reuses file →
      x.opened.index.records.about file.path =
        generated x.opened.index.embedder file.path file.path.stem o := by
  have hfiles (f : SourceFile) (hf : f ∈ x.found.files) : f ∈ files (x :: earlier) :=
    List.mem_append_left _ hf
  have hnext := (sequence_cons h).2
  have hopened := sound_of_sequence h hdistinct
  obtain ⟨-, -, -, hrecords, hothers⟩ := sound_prepare hdistinct x.request hfiles hnext.ready.once
    hnext.ready.steady hnext.ready.filed henabled hopened
  change ∀ f ∈ x.found.files, x.analyzed.index.records.about f.path = _ at hrecords
  change ∀ other, _ → x.analyzed.index.records.about other = ∅ at hothers
  have hparsed {file : SourceFile} (hfile : file ∈ x.found.files) {o : Outline}
      (ho : file.HasOutline o) : x.analyzed.index.records.about file.path =
        if (Memo.outline? file.digest (x.opened.memo? file.path)).isSome = true ∧
          ((x.opened.index.records.about file.path).get?
            (recordKey .file file.path "")).isSome = true
        then x.opened.index.records.about file.path
        else generated x.opened.index.embedder file.path file.path.stem o := by
    rw [hrecords file hfile]
    refine recordsAfter_of_hasOutline ho fun o' ho' => ?_
    exact ((hopened.known file (hfiles file hfile)).hasOutline hdistinct (hfiles file hfile) ho.1
      ho').unique ho
  constructor
  · intro haligned file hfile o ho hreused
    rw [← haligned.parsed file hfile o ho, hparsed hfile ho,
      if_pos ((reuses_iff hdistinct hopened (hfiles file hfile) ho).1 hreused)]
  · intro hreused
    refine ⟨fun file hfile o ho => ?_, fun path hpath => ?_⟩
    · rw [hparsed hfile ho]
      split
      · next hcond =>
        exact hreused file hfile o ho
          ((reuses_iff hdistinct hopened (hfiles file hfile) ho).2 hcond)
      · rfl
    · by_cases hany : ∃ file ∈ x.found.files, file.path.same path = true
      · obtain ⟨file, hfile, hsame⟩ := hany
        rw [← Meaning.Index.about_congr hsame, hrecords file hfile]
        refine recordsAfter_of_not_hasOutline (hpath file hfile hsame) fun hparses o ho => ?_
        exact hpath file hfile hsame o
          ((hopened.known file (hfiles file hfile)).hasOutline hdistinct (hfiles file hfile)
            hparses ho)
      · refine hothers path fun file hfile => Bool.eq_false_iff.2 fun hsame => hany ?_
        exact ⟨file, hfile, hsame⟩

theorem aligned_of_followsOne (h : Sequence Follows (x :: earlier))
    (hdistinct : Distinct (files (x :: earlier))) (henabled : x.opened.index.enabled = true)
    (hone : Sequence FollowsOne (x :: earlier)) : x.Aligned := by
  refine (aligned_iff_of_sequence h hdistinct henabled).2 fun file hfile o ho hreused => ?_
  have hmem : file ∈ files (x :: earlier) := List.mem_append_left _ hfile
  have hopened := sound_of_sequence h hdistinct
  obtain ⟨hcached, hany⟩ := (reuses_iff hdistinct hopened hmem ho).1 hreused
  obtain ⟨o', ho'⟩ := Option.isSome_iff_exists.1 hcached
  have hknown := (hopened.known file hmem).hasOutline hdistinct hmem ho.1 ho'
  -- In stores that are in step the records that are left alone are those of the cached outline.
  obtain ⟨hbefore, hnext⟩ := sequence_cons hone
  have hin : InStep (files (x :: earlier)) x.opened :=
    inStep_opened hnext (inStep_of_sequence hdistinct (sequence_cons h).1 hbefore
      fun f hf => List.mem_append_right _ hf)
  rw [← hknown.unique ho]
  exact hin file hmem _ _ ho' (Option.isSome_iff_ne_none.1 hany)

/-- After the first pass of a run in a sequence, the records of the index are those of the outlines
of the files exactly if the records that were left alone are.  They are if every run of the sequence
that finds something in both of its stores opens both as the same run has left them. -/
theorem aligned_iff (h : Sequence Follows (x :: earlier))
    (hdistinct : Distinct (files (x :: earlier))) (henabled : x.opened.index.enabled = true) :
    (x.Aligned ↔ ∀ file ∈ x.found.files, ∀ o, file.HasOutline o → x.Reuses file →
      x.opened.index.records.about file.path =
        generated x.opened.index.embedder file.path file.path.stem o) ∧
      (Sequence FollowsOne (x :: earlier) → x.Aligned) :=
  ⟨aligned_iff_of_sequence h hdistinct henabled, aligned_of_followsOne h hdistinct henabled⟩

end Aligned

/-! ### Runs over one output directory -/

/-- A run that opens a cache in the state directory of its output. -/
structure Begins (place : List RawText) (x : Session σ) : Prop where
  once : x.found.files.Pairwise fun f g => f.path ≠ g.path
  told : ∀ f ∈ x.found.files, ∀ g ∈ x.found.files, Cache.ToldApart f.path g.path
  packages : x.request.tools.layout.NamesPackages
  housed : Housed x.request.output place x.opened.cache x.opened.files
  filed : FiledIn x.request.output x.opened.index
  hashing : ∃ dimension, x.opened.index.embedder = .hashing dimension

/-- The next run over the same output directory, which finds files and opens an index. -/
def next (x : Session σ) (found : Scan.Result) (index : Meaning.Index) : Session σ :=
  { x with found, opened := { x.ended with index } }

@[simp] theorem index_next (x : Session σ) (found : Scan.Result) (index : Meaning.Index) :
    (x.next found index).opened.index = index := rfl

theorem cacheFrom_next (x : Session σ) (found : Scan.Result) (index : Meaning.Index) :
    (x.next found index).CacheFrom x := fun _ _ => rfl

namespace Begins

variable {place : List RawText} {x : Session σ}

theorem ready (h : x.Begins place) : x.Ready :=
  ⟨h.once, h.housed.steady, h.hashing, h.filed.filed⟩

theorem index_ended (h : x.Begins place) : x.ended.index = x.analyzed.index :=
  index_runOn x.service x.validator x.request h.filed h.housed

theorem exists_index_ended (h : x.Begins place) :
    ∃ records, x.ended.index = { x.opened.index with records } := by
  obtain ⟨records, hprepare⟩ := exists_index_prepare x.request x.found x.opened
  exact ⟨records, h.index_ended.trans hprepare⟩

/-- The cache that the run leaves serves an outline of each file that parses. -/
theorem served_ended (h : x.Begins place) {file : SourceFile} (hfile : file ∈ x.found.files)
    {o : Outline} (ho : file.HasOutline o) : x.ended.served file.path file.digest ≠ none := by
  obtain ⟨-, hserved⟩ :=
    housed_runOn x.service x.validator x.request h.once h.told h.packages h.filed h.housed
  obtain ⟨o', ho'⟩ := exists_outline?_memoAfter ho (x.opened.memo? file.path)
  rw [Shared.served_eq]
  exact Option.ne_none_iff_exists'.2 ⟨o', hserved file hfile o' ho'⟩

/-- The run after the next one can be done in the same place. -/
theorem next (h : x.Begins place) {found : Scan.Result} {index : Meaning.Index}
    (honce : found.files.Pairwise fun f g => f.path ≠ g.path)
    (htold : ∀ f ∈ found.files, ∀ g ∈ found.files, Cache.ToldApart f.path g.path)
    (hfiled : FiledIn x.request.output index)
    (hhashing : ∃ dimension, index.embedder = .hashing dimension) :
    (x.next found index).Begins place :=
  ⟨honce, htold, h.packages,
    (housed_runOn x.service x.validator x.request h.once h.told h.packages h.filed h.housed).1,
    hfiled, hhashing⟩

end Begins

/-- A file that is left alone, if it is the only one, leaves the index as it was. -/
theorem index_analyzed_of_reuses {x : Session σ} {file : SourceFile} (hfound : x.found.files = [file])
    (hparses : file.syntaxError = none) (hserved : x.opened.served file.path file.digest ≠ none)
    (hmeaning : (x.opened.index.prune [file.path]).2.fileMeaning? file.path ≠ none) :
    x.analyzed.index = (x.opened.index.prune [file.path]).2 := by
  obtain ⟨log, hprepare⟩ := exists_prepare x.request x.found x.opened
  rw [analyzed, hprepare, index_flush, hfound]
  refine (Shared.analyze_cases file _).1.trans ?_
  rw [Shared.served_eq] at hserved
  obtain ⟨o, ho⟩ := Option.ne_none_iff_exists'.1 hserved
  exact indexAfter_of_known hparses ho hmeaning

/-- A run that leaves the records of another outline alone leaves an index that is behind. -/
theorem not_aligned_of_reuses {x : Session σ} {file : SourceFile} {path : Path} {o o' : Outline}
    {dimension : Nat} (hfound : x.found.files = [file]) (hpath : file.path = path)
    (ho' : file.HasOutline o') (hserved : x.opened.served file.path file.digest ≠ none)
    (hembedder : x.opened.index.embedder = .hashing dimension)
    (habout : x.opened.index.records.about path = generated (.hashing dimension) path path.stem o)
    (hmeaning : (x.opened.index.prune [path]).2.fileMeaning? path ≠ none)
    (hapart : ∀ d ∈ drafts path.stem o, ∀ d' ∈ drafts path.stem o', d.meaning ≠ d'.meaning) :
    ¬x.Aligned := by
  intro haligned
  subst hpath
  have hboth : generated (.hashing dimension) file.path file.path.stem o =
      generated (.hashing dimension) file.path file.path.stem o' := by
    have hparsed := haligned.parsed file (by rw [hfound]; exact .head _) o' ho'
    rw [index_analyzed_of_reuses hfound ho'.1 hserved hmeaning, hembedder,
      Meaning.Index.about_prune, if_pos, habout] at hparsed
    · exact hparsed
    · rw [List.any_cons, Path.same_refl, Bool.true_or]
  have hkey : (generated (.hashing dimension) file.path file.path.stem o).get?
      (recordKey .file file.path "") ≠ none := fun hnone =>
    (Meaning.Index.get?_generated_eq_none_iff dimension file.path file.path.stem o _).1 hnone _
      (.head _) rfl
  obtain ⟨record, hrecord⟩ := Option.ne_none_iff_exists'.1 hkey
  have hmem := Table.mem_of_mem_ofList ((Table.get?_eq_some_iff _).1 hrecord)
  rw [hboth] at hrecord
  have hmem' := Table.mem_of_mem_ofList ((Table.get?_eq_some_iff _).1 hrecord)
  obtain ⟨d, hd, -, hpayload, -⟩ := Meaning.Index.exists_draft_of_mem hmem
  obtain ⟨d', hd', -, hpayload', -⟩ := Meaning.Index.exists_draft_of_mem hmem'
  exact hapart d hd d' hd' (congrArg Meaning.Payload.meaning (hpayload.symm.trans hpayload'))

/-! ### Runs over one file -/

/-- The path of a source file. -/
def sourcePath : Path := ⟨"/in/a.py"⟩

/-- A source file with a text. -/
def source (text : String) : SourceFile := ⟨sourcePath, text.toUTF8, none⟩

/-- A scan that finds one file. -/
def foundOne (text : String) : Scan.Result := { files := [source text] }

/-- An output directory with an empty cache in it. -/
def emptyOutput : Files :=
  ((({} : Files).put ["out"] .directory).put ["out", ".modernize"] .directory).put
    ["out", ".modernize", "cache"] .directory

/-- What the first run over the output directory opens: a cache and an index with nothing in them. -/
def emptyStores : Shared Programmed where
  cache := { store := .ok (.inDirectory (cacheDirectory ⟨"/out"⟩)) }
  index := { enabled := true, embedder := .hashing 4, records := { space := "hashing-4" },
             file := some ((stateDirectory ⟨"/out"⟩).join Meaning.Index.fileName) }
  files := emptyOutput
  outside := .usual

/-- The first run over an output directory. -/
def first (text : String) : Session Programmed where
  service := Programmed.usual.service
  validator := {}
  request := { input := ⟨"/in"⟩, output := ⟨"/out"⟩ }
  found := foundOne text
  opened := emptyStores

/-- The run after the first one, over the same text. -/
def again (text : String) : Session Programmed :=
  (first text).next (foundOne text) (first text).ended.index

/-- The run after the first one, over another text and without an index. -/
def unindexed (text later : String) : Session Programmed :=
  (first text).next (foundOne later) .disabled

/-- The run after that, which opens the index of the first run. -/
def resumed (text later : String) : Session Programmed :=
  (unindexed text later).next (foundOne later) (first text).ended.index

theorem once_foundOne (text : String) :
    (foundOne text).files.Pairwise fun f g => f.path ≠ g.path := List.pairwise_singleton _ _

theorem told_foundOne (text : String) :
    ∀ f ∈ (foundOne text).files, ∀ g ∈ (foundOne text).files, Cache.ToldApart f.path g.path := by
  intro f hf g hg _
  rw [List.mem_singleton.1 hf, List.mem_singleton.1 hg]

theorem node?_emptyOutput (name : RawText) :
    emptyOutput.node? ([("out" : RawText)] ++ cacheNames ++ [name]) = none := by
  change emptyOutput.node? ["out", ".modernize", "cache", name] = none
  rw [emptyOutput, Files.node?_put _ (by decide), if_neg (by simp), Files.node?_put _ (by decide),
    if_neg (by simp), Files.node?_put _ (by decide), if_neg (by simp)]
  rfl

theorem housed_emptyStores : Housed ⟨"/out"⟩ ["out"] emptyStores.cache emptyStores.files := by
  refine ⟨⟨by decide +kernel, by decide +kernel⟩, rfl, by decide +kernel, by decide +kernel,
    fun name _ => ?_⟩
  change emptyOutput.node? ([("out" : RawText)] ++ cacheNames ++ [name]) ≠ _
  rw [node?_emptyOutput]
  exact (Option.some_ne_none _).symm

theorem namesPackages_default : ({} : Layout.Settings).NamesPackages :=
  ⟨by decide, by decide⟩

theorem begins_first (text : String) : (first text).Begins ["out"] :=
  ⟨once_foundOne text, told_foundOne text, namesPackages_default, housed_emptyStores,
    fun _ hpath => (Option.some.inj hpath).symm, 4, rfl⟩

theorem cacheNew_first (text : String) : (first text).CacheNew := by
  intro path digest
  have hnone := (Cache.working_directory housed_emptyStores.kept housed_emptyStores.values.wellFormed
    housed_emptyStores.values.found node?_emptyOutput).2 path
  rw [Shared.served, Cache.fst_outline?]
  change (Cache.matching digest (emptyStores.cache.remembers emptyStores.files path)).bind _ = none
  rw [hnone]
  rfl

theorem enabled_ended (text : String) : (first text).ended.index.enabled = true := by
  obtain ⟨records, hindex⟩ := (begins_first text).exists_index_ended
  rw [hindex]
  rfl

theorem embedder_ended (text : String) : (first text).ended.index.embedder = .hashing 4 := by
  obtain ⟨records, hindex⟩ := (begins_first text).exists_index_ended
  rw [hindex]
  rfl

theorem filed_ended (text : String) : FiledIn ⟨"/out"⟩ (first text).ended.index := by
  obtain ⟨records, hindex⟩ := (begins_first text).exists_index_ended
  rw [hindex]
  exact fun path hpath => (begins_first text).filed path hpath

/-- Runs over one text tell everything apart. -/
theorem distinct_of_source {used : List SourceFile} (text : String)
    (h : ∀ f ∈ used, f = source text) : Distinct used := by
  refine ⟨fun f hf g hg _ => ?_, fun f hf g hg _ => ?_, fun f hf g hg _ => ?_,
    fun f hf g hg _ _ _ _ _ _ _ _ _ => ?_⟩ <;> rw [h f hf, h g hg]

theorem follows_first (text : String) : Follows [] (first text) :=
  ⟨(begins_first text).ready, .inl (cacheNew_first text), .inl rfl⟩

theorem indexFrom_first {x : Session Programmed} {text : String}
    (h : x.opened.index = (first text).ended.index) : x.IndexFrom (first text) :=
  ⟨rfl, by rw [h], by rw [h]⟩

theorem follows_again (text : String) : Follows [first text] (again text) :=
  ⟨((begins_first text).next (once_foundOne text) (told_foundOne text) (filed_ended text)
      ⟨4, embedder_ended text⟩).ready,
    .inr ⟨first text, .head _, cacheFrom_next _ _ _⟩,
    .inr ⟨first text, .head _, indexFrom_first (index_next _ _ _)⟩⟩

theorem enabled_again (text : String) : (again text).opened.index.enabled = true := by
  rw [again, index_next]
  exact enabled_ended text

theorem sequence_again (text : String) : Sequence Follows [again text, first text] :=
  .cons (.cons .nil (follows_first text)) (follows_again text)

theorem sequenceOne_again (text : String) : Sequence FollowsOne [again text, first text] :=
  .cons (.cons .nil (.inl (cacheNew_first text)))
    (.inr (.inr ⟨first text, .head _, cacheFrom_next _ _ _, indexFrom_first (index_next _ _ _)⟩))

theorem distinct_again (text : String) : Distinct (files [again text, first text]) := by
  refine distinct_of_source text fun f hf => ?_
  obtain ⟨x, hx, hf⟩ := List.mem_flatMap.1 hf
  have hfound : x.found = foundOne text := by
    rcases List.mem_cons.1 hx with rfl | hx
    · rfl
    · rw [List.mem_singleton.1 hx]
      rfl
  rw [hfound] at hf
  exact List.mem_singleton.1 hf

/-- A text with a function. -/
def oneFunction : String := "def f():\n    pass\n"

/-- A text with two other functions. -/
def twoFunctions : String := "def g():\n    pass\n\ndef h():\n    pass\n"

theorem parses_oneFunction : ∃ o, (source oneFunction).HasOutline o := by
  cases hparse : Outline.ofBytes oneFunction.toUTF8 with
  | ok o => exact ⟨o, rfl, hparse⟩
  | error e =>
    have hok : (Outline.ofBytes oneFunction.toUTF8).toOption.isSome = true := by decide +kernel
    rw [hparse] at hok
    cases hok

theorem aligned_iff_again :
    (∃ o, (source oneFunction).HasOutline o) ∧
      Sequence Follows [again oneFunction, first oneFunction] ∧
      Distinct (files [again oneFunction, first oneFunction]) ∧
      (again oneFunction).opened.index.enabled = true ∧ (again oneFunction).Aligned := by
  refine ⟨parses_oneFunction, sequence_again _, distinct_again _, enabled_again _, ?_⟩
  exact (aligned_iff (sequence_again oneFunction) (distinct_again oneFunction)
    (enabled_again oneFunction)).2 (sequenceOne_again oneFunction)

/-! ### An index that falls behind -/

section Behind

variable {text later : String} {o o' : Outline}

theorem begins_unindexed (text later : String) : (unindexed text later).Begins ["out"] :=
  (begins_first text).next (once_foundOne later) (told_foundOne later) nofun ⟨1, rfl⟩

theorem begins_resumed (text later : String) : (resumed text later).Begins ["out"] :=
  (begins_unindexed text later).next (once_foundOne later) (told_foundOne later) (filed_ended text)
    ⟨4, embedder_ended text⟩

theorem sequence_resumed (text later : String) :
    Sequence Follows [resumed text later, unindexed text later, first text] :=
  .cons (.cons (.cons .nil (follows_first text))
      ⟨(begins_unindexed text later).ready, .inr ⟨first text, .head _, cacheFrom_next _ _ _⟩,
        .inl rfl⟩)
    ⟨(begins_resumed text later).ready, .inr ⟨unindexed text later, .head _, cacheFrom_next _ _ _⟩,
      .inr ⟨first text, .tail _ (.head _), indexFrom_first (index_next _ _ _)⟩⟩

theorem enabled_resumed (text later : String) :
    (resumed text later).opened.index.enabled = true := by
  rw [resumed, index_next]
  exact enabled_ended text

/-- The index that the first run leaves. -/
theorem about_first (ho : (source text).HasOutline o) :
    Sourced [source text] (first text).ended.index ∧
      (first text).ended.index.records.about sourcePath =
        generated (.hashing 4) sourcePath sourcePath.stem o := by
  have hsequence : Sequence Follows [first text] := .cons .nil (follows_first text)
  have hdistinct : Distinct (files [first text]) :=
    distinct_of_source text fun f hf => List.mem_singleton.1 hf
  have haligned := aligned_of_followsOne hsequence hdistinct rfl
    (.cons .nil (.inl (cacheNew_first text)))
  have hleaves := leaves_of_sequence hdistinct hsequence (fun f hf => hf) _ (.head _)
  refine ⟨hleaves.sourced rfl, ?_⟩
  rw [(begins_first text).index_ended]
  exact haligned.parsed (source text) (.head _) o ho

/-- Whether two texts parse, and nothing that the index says about the one is said about the other.
-/
def saysOther (text later : String) : Bool :=
  match Outline.ofBytes text.toUTF8, Outline.ofBytes later.toUTF8 with
  | .ok o, .ok o' => (drafts sourcePath.stem o).all fun d =>
      (drafts sourcePath.stem o').all fun d' => d.meaning != d'.meaning
  | _, _ => false

theorem exists_of_saysOther (h : saysOther text later = true) : ∃ o o',
    (source text).HasOutline o ∧ (source later).HasOutline o' ∧
      ∀ d ∈ drafts sourcePath.stem o, ∀ d' ∈ drafts sourcePath.stem o', d.meaning ≠ d'.meaning := by
  unfold saysOther at h
  split at h
  · next o o' ho ho' =>
    refine ⟨o, o', ⟨rfl, ho⟩, ⟨rfl, ho'⟩, fun d hd d' hd' => ?_⟩
    exact bne_iff_ne.1 (List.all_eq_true.1 (List.all_eq_true.1 h d hd) d' hd')
  · cases h

/-- A run without an index learns the outline of a file that has changed, and the next run leaves the
records of the old outline alone. -/
theorem not_aligned_resumed (h : saysOther text later = true) : ¬(resumed text later).Aligned := by
  obtain ⟨o, o', ho, ho', hapart⟩ := exists_of_saysOther h
  obtain ⟨hsourced, habout⟩ := about_first ho
  have hdistinct : Distinct [source text] := distinct_of_source text fun f hf => List.mem_singleton.1 hf
  have hmeaning : ((first text).ended.index.prune [sourcePath]).2.fileMeaning? sourcePath ≠ none := by
    intro hnone
    have hlost := (fileMeaning?_eq_none_iff hdistinct (.head _)
      (hsourced.prune [sourcePath]) ho).1 hnone
    rw [show (source text).path = sourcePath from rfl, Meaning.Index.about_prune, List.any_cons,
      Path.same_refl, Bool.true_or, if_pos rfl, habout] at hlost
    exact (Meaning.Index.get?_generated_eq_none_iff 4 _ _ o _).1 hlost _ (.head _) rfl
  have hindex : (resumed text later).opened.index = (first text).ended.index := index_next _ _ _
  have hserved : (resumed text later).opened.served (source later).path (source later).digest ≠
      none := by
    rw [resumed, cacheFrom_next]
    exact (begins_unindexed text later).served_ended (.head _) ho'
  rw [← hindex] at habout hmeaning
  have hembedder : (resumed text later).opened.index.embedder = .hashing 4 := by
    rw [hindex]
    exact embedder_ended text
  exact not_aligned_of_reuses rfl rfl ho' hserved hembedder habout hmeaning hapart

end Behind

/-- A function that is gone stays in the index. -/
theorem aligned_fails_unindexed :
    Sequence Follows [resumed oneFunction twoFunctions, unindexed oneFunction twoFunctions,
        first oneFunction] ∧
      (resumed oneFunction twoFunctions).opened.index.enabled = true ∧
      ¬(resumed oneFunction twoFunctions).Aligned :=
  ⟨sequence_resumed _ _, enabled_resumed _ _, not_aligned_resumed (by decide +kernel)⟩

end Session

end Recast.Run
