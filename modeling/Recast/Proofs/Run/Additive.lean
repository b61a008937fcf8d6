/-
  Proofs/Run/Additive.lean --- the index of meanings adds to prompts, and to nothing else.

  A service whose answers do not depend on the related places in a prompt gives the same answers
  whatever the index finds.  Then two runs that differ in the index, in its settings or in the records
  it was saved with, end in the same way for every file and for the cache (`run_additive`): the work
  on each file in one of them can keep up with that in the other one.
-/
import Mathlib.Data.List.Perm.Basic
import Recast.Proofs.Run.Indexing
import Recast.Proofs.Run.Listing
import Recast.Proofs.Run.Recorded

set_option autoImplicit false

namespace Recast

/-! ## Modules apart from the state directory -/

namespace Layout

/-- A module that has a directory of its own in the output, apart from the state directory. -/
structure IsModuleName (name : String) : Prop where
  isName : Path.IsName name
  apart : name ≠ ".modernize"

/-- Settings that name such modules only. -/
structure Settings.NamesModules (s : Settings) : Prop where
  fallback : IsModuleName s.defaultModule
  rules : ∀ r ∈ s.rules, IsModuleName r.module

theorem isModuleName_of_isPackageName {name : String} (h : isPackageName name = true) :
    IsModuleName name := by
  refine ⟨isName_of_isPackageName h, ?_⟩
  rintro rfl
  exact absurd h (by decide)

/-- Go packages are such modules. -/
theorem Settings.NamesPackages.namesModules {s : Settings} (h : s.NamesPackages) : s.NamesModules :=
  ⟨isModuleName_of_isPackageName h.fallback, fun r hr => isModuleName_of_isPackageName (h.rules r hr)⟩

theorem Settings.NamesModules.isModuleName {s : Settings} (h : s.NamesModules) {sources : List Path}
    {p : Placement} (hp : p ∈ (place s sources).1) : IsModuleName p.module :=
  forall_module h.fallback h.rules hp

end Layout

namespace Run

open Conversion (Item Stage Translator)

variable {σ : Type}

/-! ## How runs end -/

/-- What became of a file. -/
structure Outcome where
  path : Path
  status : Status
  trace : List Stage
  attempts : Nat
  target : Option Path
  output : Option String

/-- What became of a file of a report. -/
def Outcome.of (item : Item) : Outcome :=
  ⟨item.source.path, statusOf item, item.trace, item.attempts, item.target, item.output⟩

@[simp] theorem outcome_judge (v : Assessment.Validator) (modules : Table String Assessment.ModuleCheck)
    (item : Item) : Outcome.of (judge v modules item) = Outcome.of item := by
  unfold judge
  split <;> rfl

theorem SameFile.outcome {item item' : Item} (h : Work.SameFile item item') :
    Outcome.of item' = Outcome.of item := by
  obtain ⟨rewritten, failure, -, rfl⟩ := h
  rfl

/-- The value that the cache has stored for a key. -/
def Shared.stored? (s : Shared σ) (key : String) : Option ByteArray :=
  s.cache.store.toOption.bind fun store => (store.held? s.files key).toOption.join

/-- What became of the files, and what the cache has stored in the end. -/
structure Ending where
  outcomes : List Outcome
  stored : String → Option ByteArray

/-- How a run ends that has a report. -/
def Ending.of (report : Report) (last : Shared σ) : Ending :=
  ⟨report.items.map .of, last.stored?⟩

/-- Whether the runs of a request, whatever the order of the steps of the workers is, can end in a
way. -/
def EndsWith (service : Service σ) (v : Assessment.Validator) (r : Request) (files : Files)
    (outside : σ) (ending : Ending) : Prop :=
  ∃ report last, Completes service v r (fun _ => none) files outside report last ∧
    Ending.of report last = ending

/-- How a run ends, which has no report if it has found no files. -/
def ended (result : Except Scan.ScanError Report × Shared σ) :
    Option (List Outcome) × (String → Option ByteArray) :=
  (result.1.toOption.map fun report => report.items.map .of, result.2.stored?)

/-! ### The store in the end -/

theorem stored?_of_error {s : Shared σ} {reason : String} (h : s.cache.store = .error reason)
    (key : String) : s.stored? key = none := by
  rw [Shared.stored?, h]
  rfl

theorem stored?_of_ok {s : Shared σ} {store : Cache.Store} (h : s.cache.store = .ok store)
    (key : String) : s.stored? key = (store.held? s.files key).toOption.join := by
  rw [Shared.stored?, h]
  rfl

theorem Alike.stored? {output : Path} {s s' : Shared σ} (h : Alike output s s') :
    s'.stored? = s.stored? := by
  funext key
  cases hstore : s.cache.store with
  | error reason => rw [stored?_of_error hstore, stored?_of_error (h.cache ▸ hstore)]
  | ok store => rw [stored?_of_ok hstore, stored?_of_ok (h.cache ▸ hstore), h.held? hstore]

/-- A cache in files is found. -/
theorem StoredIn.placed {output : Path} {c : Cache} {files : Files} (h : StoredIn output c files) :
    Cache.Placed c files := by
  intro s path hstore hmedium
  obtain ⟨rfl, place, hleads⟩ := h s path hstore hmedium
  refine ⟨place, Files.find_eq_ok.2 ⟨?_, hleads.node, nofun⟩⟩
  rw [Files.target_eq_follow]
  · exact hleads.follow
  · rw [cacheDirectory, Path.components_join _ (by decide)]
    exact List.append_ne_nil_of_right_ne_nil _ (List.cons_ne_nil _ _)

/-- Nothing else that is written changes what is stored. -/
theorem stored?_of_writes {s t : Shared σ} (hplaced : Cache.Placed s.cache s.files)
    (h : Writes s t) : t.stored? = s.stored? := by
  funext key
  cases hstore : s.cache.store with
  | error reason => rw [stored?_of_error hstore, stored?_of_error (h.cache ▸ hstore)]
  | ok store =>
    rw [stored?_of_ok hstore, stored?_of_ok (h.cache ▸ hstore)]
    obtain ⟨name, medium, refused⟩ := store
    cases medium with
    | memory values => rfl
    | directory directory =>
      obtain ⟨place, hfind⟩ := hplaced _ directory hstore rfl
      have hheld (files : Files) (content : ByteArray) :
          ((Cache.Store.mk name (.directory directory) refused).held? files key).toOption.join =
            some content ↔ files.read (Cache.Store.keyPath directory key) = .ok content := by
        rw [← Cache.Store.held?_directory]
        cases (Cache.Store.mk name (.directory directory) refused).held? files key with
        | error e => exact ⟨nofun, nofun⟩
        | ok held => simp [Except.toOption]
      refine Option.ext fun content => ?_
      rw [hheld, hheld, Cache.Placed.read_keyPath hfind,
        Cache.Placed.read_keyPath (h.files.find_directory hfind)]
      have houtside : ¬Cache.Outside (place ++ [(Cache.keyName key : RawText)]) :=
        fun h => h place key rfl
      refine ⟨h.files.file_before houtside, fun hnode => ?_⟩
      rw [h.files.node_eq houtside (hnode ▸ Option.some_ne_none _), hnode]

section Conclude

variable {r : Request} {s s' : Shared σ} {items items' : List Item} (service : Service σ)
  (v : Assessment.Validator)

/-- A report tells what became of the files in the order of their paths. -/
theorem outcomes_conclude (r : Request) (found : Scan.Result) (items : List Item) (s : Shared σ) :
    (conclude service v r found items s).1.items.map Outcome.of =
      (items.map Outcome.of).mergeSort fun a b => a.path.le b.path := by
  obtain ⟨-, modules, hitems⟩ := exists_items_conclude service v r found items s
  rw [hitems, List.map_map]
  simp only [Function.comp_def, outcome_judge]
  exact List.map_mergeSort fun _ _ _ _ => rfl

/-- Runs whose files have been worked on in the same way end in the same way. -/
theorem ending_conclude (hs : Alike r.output s s')
    (hitems : List.Forall₂ Work.SameFile items items') (index : Meaning.IndexSettings)
    (found found' : Scan.Result) :
    Ending.of (conclude service v (r.withIndex index) found' items' s').1
        (conclude service v (r.withIndex index) found' items' s').2 =
      Ending.of (conclude service v r found items s).1 (conclude service v r found items s).2 := by
  have hmap : items'.map Outcome.of = items.map Outcome.of := by
    induction hitems with
    | nil => rfl
    | cons hitem _ ih => rw [List.map_cons, List.map_cons, SameFile.outcome hitem, ih]
  have hstored {r : Request} {found : Scan.Result} {items : List Item} {s : Shared σ}
      (hplaced : StoredIn r.output s.cache s.files) :
      (conclude service v r found items s).2.stored? = s.stored? :=
    stored?_of_writes hplaced.placed (writes_conclude service v r found items s)
  have hstored' : (conclude service v (r.withIndex index) found' items' s').2.stored? = s'.stored? :=
    hstored hs.stored'
  unfold Ending.of
  rw [outcomes_conclude, outcomes_conclude, hmap, hstored', hstored hs.stored, hs.stored?]

end Conclude

/-! ## Two runs -/

section Run

variable {service : Service σ} {v : Assessment.Validator} {r : Request} {files : Files} {outside : σ}

theorem run_of_error {e : Scan.ScanError}
    (h : Scan.scan r.tools.scan (Shared.openFor r files outside).files r.input = .error e) :
    run service v r files outside = (.error e, Shared.openFor r files outside) := by
  unfold run
  dsimp only
  rw [h]

/-- One file is worked on after the other. -/
theorem exists_run_of_ok {found : Scan.Result} {log : Log}
    (h : Scan.scan r.tools.scan (Shared.openFor r files outside).files r.input = .ok (found, log)) :
    ∃ outlines analyzed items worked,
      Task.runAll (found.files.map Work.analyze)
        (begin r found ((Shared.openFor r files outside).say (log ++ [announcement r found]))) =
          (outlines, analyzed) ∧
      Task.runAll ((assign r found outlines).map
        (Work.process ⟨service, v, analyzed.flush.index, r.conversion⟩ r.output fun _ => none))
        analyzed.flush = (items, worked) ∧
      run service v r files outside =
        (.ok (conclude service v r found items worked).1,
          (conclude service v r found items worked).2) := by
  refine ⟨_, _, _, _, rfl, rfl, ?_⟩
  unfold run
  dsimp only
  rw [h, runAll_process, runAll_analyze]
  rfl

end Run

/-- What an index drops in the beginning cannot be noticed. -/
theorem Alike.begin {output : Path} {s s' : Shared σ} (h : Alike output s s') (r r' : Request)
    (found found' : Scan.Result) (log log' : Log) :
    Alike output (begin r found (s.say log)) (begin r' found' (s'.say log')) := by
  have hbegin {t t' : Shared σ} (h : Alike output t t') (r : Request) (found : Scan.Result)
      (log : Log) : Alike output (Run.begin r found (t.say log)) t' := by
    obtain ⟨items, hprune, -⟩ := Meaning.Index.prune_spec t.index (found.files.map (·.path))
    refine h.learn rfl rfl ?_
    change (t.index.prune _).2.file = _
    rw [hprune]
  exact (hbegin (hbegin h r found log).symm r' found' log').symm

/-- The index may be saved in both. -/
theorem Alike.flushes {output : Path} {s s' : Shared σ} (h : Alike output s s') :
    Alike output s.flush s'.flush := h.flush.symm.flush.symm

section Passes

variable {r : Request} {found found' : Scan.Result} {outlines : List (Except String Outline)}

/-- The places of the files do not depend on the index. -/
theorem assign_withIndex (hfound : found'.files = found.files) (index : Meaning.IndexSettings) :
    assign (r.withIndex index) found' outlines = assign r found outlines := by
  unfold assign placements
  rw [hfound]
  rfl

/-- The work of the first pass. -/
theorem matches_first (hfound : found'.files = found.files) :
    List.Forall₂ (Work.Matches (σ := σ) r.output Eq) (found.files.map Work.analyze)
      (found'.files.map Work.analyze) := by
  rw [hfound, List.forall₂_map_left_iff, List.forall₂_map_right_iff, List.forall₂_same]
  exact fun file _ => Work.matches_analyze file

/-- The work of the second pass. -/
theorem matches_second (hnames : r.tools.layout.NamesModules)
    (hlength : outlines.length = found.files.length) (hfound : found'.files = found.files)
    (index : Meaning.IndexSettings) (t : Translator σ) (other : Meaning.Index)
    (hservice : t.service.IgnoresRelated) (hgoes : ∀ u, (t.service.cancelled u).1 = false) :
    List.Forall₂ (Work.Matches r.output Work.SameFile)
      ((assign r found outlines).map (Work.process t r.output fun _ => none))
      ((assign (r.withIndex index) found' outlines).map
        (Work.process { t with index := other } r.output fun _ => none)) := by
  rw [assign_withIndex hfound, List.forall₂_map_left_iff, List.forall₂_map_right_iff,
    List.forall₂_same]
  intro a ha
  have hplacement : a.placement ∈ (placements r found).1 := by
    rw [← placements_assign r found hlength]
    exact List.mem_map_of_mem ha
  have hmodule := hnames.isModuleName hplacement
  have hfile := (Layout.place_spec _ _).2.2 _ hplacement
  refine Work.matches_process t other hservice hgoes ⟨hmodule.isName, hfile.isName⟩ ?_ ?_
  · rintro (heq | heq)
    · exact hmodule.apart (RawText.ofString_inj.1 (List.cons.inj heq).1)
    · exact absurd (congrArg List.length heq) (by simp)
  · rintro (heq | heq)
    · exact absurd (congrArg List.length heq) (by simp)
    · exact hmodule.apart (RawText.ofString_inj.1 (List.cons.inj heq).1)

end Passes

section Additive

variable {service : Service σ} {v : Assessment.Validator} {r : Request} {base files files' : Files}
  {outside : σ} (hservice : service.IgnoresRelated) (hgoes : ∀ u, (service.cancelled u).1 = false)
  (hnames : r.tools.layout.NamesModules) (hbase : base.WellFormed)
  (hfiles : Recorded r.output base files) (hfiles' : Recorded r.output base files')
  (index : Meaning.IndexSettings)

include hservice hgoes hnames hbase hfiles hfiles'

/-- Whatever the order of the steps of the workers in a run is, the workers in a run that differs in
the index can end in the same way. -/
theorem endsWith_withIndex {ending : Ending} (h : EndsWith service v r files outside ending) :
    EndsWith service v (r.withIndex index) files' outside ending := by
  obtain ⟨report, last, hcompletes, rfl⟩ := h
  cases hcompletes with
  | @intro found log outlines analyzed worked items pushed scanned first second order =>
  obtain ⟨hopened, hsources⟩ := opens_alike hfiles hfiles' index outside
  obtain ⟨found', log', scanned', hfound⟩ := Scan.scan_sameSources
    (wellFormed_openFor r (hfiles.wellFormed hbase) outside)
    (wellFormed_openFor (r.withIndex index) (hfiles'.wellFormed hbase) outside) hsources scanned
  have hbegun := hopened.begin r (r.withIndex index) found found' (log ++ [announcement r found])
    (log' ++ [announcement (r.withIndex index) found'])
  obtain ⟨outlines', analyzed', first', houtlines, hanalyzed⟩ :=
    first.simulated hbegun (matches_first hfound)
  rw [List.forall₂_eq_eq_eq] at houtlines
  subst houtlines
  have hlength : outlines.length = found.files.length := by
    rw [first.length_eq, List.length_map]
  obtain ⟨items', worked', second', hitems, hworked⟩ := second.simulated hanalyzed.flushes
    (matches_second hnames hlength hfound index _ analyzed'.flush.index hservice hgoes)
  -- The files get into the report in the same order.
  obtain ⟨pushed', hpushed, order'⟩ := List.perm_comp_forall₂ order hitems
  exact ⟨_, _, .intro scanned' first' second' order',
    ending_conclude service v hworked hpushed index found found'⟩

/-- The run that works on one file after the other ends in the same way, too. -/
theorem ended_withIndex :
    ended (run service v (r.withIndex index) files' outside) =
      ended (run service v r files outside) := by
  obtain ⟨hopened, hsources⟩ := opens_alike hfiles hfiles' index outside
  have hwf := wellFormed_openFor r (hfiles.wellFormed hbase) outside
  have hwf' := wellFormed_openFor (r.withIndex index) (hfiles'.wellFormed hbase) outside
  cases hscan : Scan.scan r.tools.scan (Shared.openFor r files outside).files r.input with
  | error e =>
    cases hscan' : Scan.scan (r.withIndex index).tools.scan
        (Shared.openFor (r.withIndex index) files' outside).files (r.withIndex index).input with
    | error e' =>
      rw [run_of_error hscan, run_of_error (r := r.withIndex index) hscan']
      exact congrArg (Prod.mk none) hopened.stored?
    | ok scanned =>
      obtain ⟨found, log, hfound, -⟩ := Scan.scan_sameSources hwf' hwf hsources.symm hscan'
      cases hfound.symm.trans hscan
  | ok scanned =>
    obtain ⟨found, log⟩ := scanned
    obtain ⟨found', log', hscan', hfound⟩ := Scan.scan_sameSources hwf hwf' hsources hscan
    have hbegun := hopened.begin r (r.withIndex index) found found' (log ++ [announcement r found])
      (log' ++ [announcement (r.withIndex index) found'])
    obtain ⟨outlines, analyzed, items, worked, hfirst, hsecond, hrun⟩ :=
      exists_run_of_ok (v := v) hscan
    obtain ⟨outlines', analyzed', items', worked', hfirst', hsecond', hrun'⟩ :=
      exists_run_of_ok (v := v) (r := r.withIndex index) hscan'
    obtain ⟨houtlines, hanalyzed⟩ := Task.runAll_simulated hbegun (matches_first hfound)
    rw [hfirst, hfirst'] at houtlines hanalyzed
    rw [List.forall₂_eq_eq_eq] at houtlines
    dsimp only at houtlines hanalyzed
    subst houtlines
    have hlength : outlines.length = found.files.length := by
      have hinterleave := Task.interleave_runAll (found.files.map Work.analyze)
        (begin r found ((Shared.openFor r files outside).say (log ++ [announcement r found])))
      rw [hfirst] at hinterleave
      rw [hinterleave.length_eq, List.length_map]
    obtain ⟨hitems, hworked⟩ := Task.runAll_simulated hanalyzed.flushes
      (matches_second hnames hlength hfound index
        ⟨service, v, analyzed.flush.index, r.conversion⟩ analyzed'.flush.index hservice hgoes)
    change Task.runAll ((assign (r.withIndex index) found' outlines).map
      (Work.process ⟨service, v, analyzed'.flush.index, r.conversion⟩ r.output fun _ => none)) _ =
        _ at hsecond'
    rw [hsecond, hsecond'] at hitems hworked
    have hending := ending_conclude service v hworked hitems index found found'
    rw [hrun, hrun']
    exact congrArg (fun ending : Ending => (some ending.outcomes, ending.stored)) hending

/-- Runs that differ in the index, which may be enabled or not, have any records and fail or work, end
in the same way: one file after the other, and in every order of the steps of the workers. -/
theorem run_additive :
    ended (run service v (r.withIndex index) files' outside) =
        ended (run service v r files outside) ∧
      ∀ ending, EndsWith service v (r.withIndex index) files' outside ending ↔
        EndsWith service v r files outside ending := by
  refine ⟨ended_withIndex hservice hgoes hnames hbase hfiles hfiles' index, fun ending => ⟨?_, ?_⟩⟩
  · have hback (hnames : (r.withIndex index).tools.layout.NamesModules)
        (hfiles : Recorded (r.withIndex index).output base files)
        (hfiles' : Recorded (r.withIndex index).output base files') :
        EndsWith service v (r.withIndex index) files' outside ending →
          EndsWith service v ((r.withIndex index).withIndex r.tools.index) files outside ending :=
      endsWith_withIndex hservice hgoes hnames hbase hfiles' hfiles r.tools.index
    exact hback hnames hfiles hfiles'
  · exact endsWith_withIndex hservice hgoes hnames hbase hfiles hfiles' index

end Additive

/-! ### A service that always answers the same -/

/-- A service that gives one answer to every prompt. -/
def constantly (answer : Except InferenceError String) : Service Unit where
  name := "constant"
  streams := false
  complete _ u := (answer, u)
  stream _ u := (.error .streamingUnsupported, u)
  taken _ u := u
  cancelled u := (false, u)

theorem ignoresRelated_constantly (answer : Except InferenceError String) :
    (constantly answer).IgnoresRelated := ⟨fun _ _ _ => rfl, fun _ _ _ => rfl⟩

/-- A tree with one source file and the state directory of an output. -/
def oneSource : Files :=
  treeOf ["w"] [["w"], ["w", "in"], ["w", "out"], ["w", "out", ".modernize"]] [["w", "in", "x.py"]]

/-- A run without an index, and one with an index whose records cannot be read. -/
theorem run_additive_damaged :
    let service := constantly (.ok Programmed.usualAnswer)
    plainRequest.tools.layout.NamesModules ∧ oneSource.WellFormed ∧ ∃ damaged,
      oneSource.replace (indexPath ⟨"out"⟩) "damaged".toUTF8 = .ok damaged ∧
        ended (run service {} (plainRequest.withIndex {}) damaged ()) =
          ended (run service {} plainRequest oneSource ()) ∧
        ∀ ending, EndsWith service {} (plainRequest.withIndex {}) damaged () ending ↔
          EndsWith service {} plainRequest oneSource () ending := by
  intro service
  have hnames : plainRequest.tools.layout.NamesModules :=
    Layout.Settings.NamesPackages.namesModules ⟨by decide, by decide⟩
  have hbase : oneSource.WellFormed := by decide +kernel
  have hsaved : oneSource.replace (indexPath ⟨"out"⟩) "damaged".toUTF8 =
      .ok (oneSource.put ["w", "out", ".modernize", Meaning.Index.fileName]
        (.file "damaged".toUTF8)) :=
    Files.replace_eq_ok.2 ⟨_, by decide +kernel, by decide +kernel, by decide +kernel, rfl⟩
  exact ⟨hnames, hbase, _, hsaved, run_additive (ignoresRelated_constantly _) (fun _ => rfl) hnames
    hbase .plain (.saved hsaved) {}⟩

/-! ### A module in the place of the index -/

/-- A request whose module would have its directory in the place of the index. -/
def misplaced : Request where
  input := ⟨"in"⟩
  output := ⟨"out"⟩
  tools := { cache := { backend := .none }, index := { embedder := .remote },
             layout := { rules := [], defaultModule := ".modernize/semantic_index.json" },
             requests := { maxRetries := 0 } }

/-- The Go file is written if the index is disabled, and not if it is enabled and saved there. -/
theorem ended_fails_misplaced :
    let service := constantly (.error (.service "unavailable"))
    service.IgnoresRelated ∧ (∀ u, (service.cancelled u).1 = false) ∧ oneSource.WellFormed ∧
      ended (run service {} (misplaced.withIndex { enabled := false }) oneSource ()) ≠
        ended (run service {} misplaced oneSource ()) := by
  intro service
  refine ⟨ignoresRelated_constantly _, fun _ => rfl, by decide +kernel, fun heq => ?_⟩
  have htargets := congrArg (fun e => e.1.map (·.map (·.target.isSome))) heq
  have hwritten : (ended (run service {} (misplaced.withIndex { enabled := false })
      oneSource ())).1.map (·.map (·.target.isSome)) = some [true] := by
    decide +kernel
  have hfailed : (ended (run service {} misplaced oneSource ())).1.map
      (·.map (·.target.isSome)) = some [false] := by
    decide +kernel
  rw [hwritten, hfailed] at htargets
  cases htargets

end Run

end Recast
