/-
  Proofs/Run/Listing.lean --- nothing that is found gets lost.

  The placements give every file a Go file of its own, so what one worker changes is nothing that
  another one relies on (`Guarantees.relies`), and in every order of their steps each file is settled
  (`settled_of_interleave`).  A report lists the settled files with what became of them
  (`completes_accounts`).
-/
import Recast.Proofs.Run.Housed
import Recast.Proofs.Run.Settling
import Recast.Proofs.Run.Spelling
import Recast.Proofs.Run.Workers
import Recast.Proofs.Scan

set_option autoImplicit false

namespace Recast.Run

open Conversion (Item Translator)

variable {σ : Type}

/-! ## Go files of their own -/

/-- A placement whose Go file has a place below the output. -/
structure Proper (p : Layout.Placement) : Prop where
  module : Path.IsName p.module
  file : Layout.IsGoFile p.fileName

theorem Proper.placeOf {p : Layout.Placement} (h : Proper p) (files : Files) (output : Path) :
    files.placeOf (Layout.targetPath output p) =
      files.placeOf output ++ [(p.module : RawText), p.fileName] :=
  Layout.placeOf_targetPath files output h.module h.file.isName

theorem placeOf_targetPath_ne {p q : Layout.Placement} (hp : Proper p) (hq : Proper q) (hne : p ≠ q)
    (files : Files) (output : Path) :
    files.placeOf (Layout.targetPath output p) ≠ files.placeOf (Layout.targetPath output q) := by
  rw [hp.placeOf, hq.placeOf]
  exact Layout.place_ne_of_ne hne _

/-- What one worker changes, one with another Go file does not rely on. -/
theorem Guarantees.relies {output : Path} {p q : Layout.Placement} {s s' : Shared σ}
    (h : Guarantees (Layout.targetPath output p) s s') (hp : Proper p) (hq : Proper q)
    (hne : p ≠ q) : Relies (Layout.targetPath output q) s s' := by
  refine Files.Writes.mono h fun place hplace heq => ?_
  rcases hplace with htarget | hentry
  · exact placeOf_targetPath_ne hp hq hne s.files output (htarget.symm.trans heq)
  · refine hentry ?_
    rw [heq, Layout.targetPath, Files.placeOf_join _ _ hq.file.isName]
    exact Cache.outside_concat fun _ => Cache.keyName_ne_of_isGoFile hq.file

section Second

variable {r : Request} {found : Scan.Result} {outlines : List (Except String Outline)}

theorem placement_mem (hlength : outlines.length = found.files.length) {a : Analyzed}
    (ha : a ∈ assign r found outlines) : a.placement ∈ (placements r found).1 := by
  rw [← placements_assign r found hlength]
  exact List.mem_map_of_mem ha

/-- Go files have places if the modules are names of directories. -/
theorem proper_of_isName (h : ∀ p ∈ (placements r found).1, Path.IsName p.module)
    (hlength : outlines.length = found.files.length) {a : Analyzed}
    (ha : a ∈ assign r found outlines) : Proper a.placement :=
  ⟨h _ (placement_mem hlength ha), (Layout.place_spec _ _).2.2 _ (placement_mem hlength ha)⟩

theorem proper_assign (h : r.tools.layout.NamesPackages)
    (hlength : outlines.length = found.files.length) {a : Analyzed}
    (ha : a ∈ assign r found outlines) : Proper a.placement :=
  proper_of_isName (fun _ hp => h.isName hp) hlength ha

theorem isPackageName_assign (h : r.tools.layout.NamesPackages)
    (hlength : outlines.length = found.files.length) {a : Analyzed}
    (ha : a ∈ assign r found outlines) : Layout.isPackageName a.placement.module = true :=
  h.isPackageName (placement_mem hlength ha)

/-- The files have different placements. -/
theorem pairwise_assign (hlength : outlines.length = found.files.length) :
    (assign r found outlines).Pairwise fun a b => a.placement ≠ b.placement := by
  have hnodup : (placements r found).1.Nodup := (Layout.place_spec _ _).2.1
  rw [← placements_assign r found hlength] at hnodup
  exact List.pairwise_map.1 hnodup

/-- In every order of the steps of the workers each file is settled whose Go file has a place. -/
theorem settled_of_proper (hproper : ∀ a ∈ assign r found outlines, Proper a.placement)
    (hlength : outlines.length = found.files.length) (t : Translator σ)
    (refuses : Layout.Placement → Option Layout.WriteError) {s worked : Shared σ} {items : List Item}
    (hsecond : Task.Interleave ((assign r found outlines).map (Work.process t r.output refuses)) s
      items worked) :
    List.Forall₂ (fun a item => Settled r.output a item worked) (assign r found outlines) items := by
  have hagree : (assign r found outlines).Pairwise (Task.Agree
      (fun a => Relies (Layout.targetPath r.output a.placement) : Analyzed → Shared σ → _)
      fun a => Guarantees (Layout.targetPath r.output a.placement)) := by
    refine (pairwise_assign hlength).imp_of_mem fun ha hb hne s s' => ?_
    have hpa := hproper _ ha
    have hpb := hproper _ hb
    exact ⟨fun hguar => hguar.relies hpa hpb hne, fun hguar => hguar.relies hpb hpa hne.symm⟩
  refine hsecond.results (fun a => steady_relies _) hagree ?_
  rw [List.forall₂_map_right_iff, List.forall₂_same]
  exact fun a _ => Work.settles_process t r.output refuses a s

theorem settled_of_interleave (h : r.tools.layout.NamesPackages)
    (hlength : outlines.length = found.files.length) (t : Translator σ)
    (refuses : Layout.Placement → Option Layout.WriteError) {s worked : Shared σ} {items : List Item}
    (hsecond : Task.Interleave ((assign r found outlines).map (Work.process t r.output refuses)) s
      items worked) :
    List.Forall₂ (fun a item => Settled r.output a item worked) (assign r found outlines) items :=
  settled_of_proper (fun _ ha => proper_assign h hlength ha) hlength t refuses hsecond

end Second

/-! ## What a report tells about a file -/

/-- A file in a report has a failure, or a Go file with a validation, as its status says. -/
structure Told (item : Item) : Prop where
  failure : item.failure ≠ none ↔ statusOf item ∈ [.parseFailed, .cancelled, .failed]
  target : item.target ≠ none ↔ statusOf item ∈ [.translated, .cached, .fallback]
  validation : item.validation ≠ none ↔ statusOf item ∈ [.translated, .cached, .fallback]

/-- A file without a Go file failed, and its status says so; the status of one with a Go file says
so. -/
theorem Ended.status {item : Item} (h : Ended item) :
    (item.failure ≠ none ∧ item.target = none ∧
      statusOf item ∈ [.parseFailed, .cancelled, .failed]) ∨
    (item.failure = none ∧ item.target ≠ none ∧ item.output ≠ none ∧
      statusOf item ∈ [.translated, .cached, .fallback]) := by
  cases h with
  | unparsed outline stage failure target =>
    refine .inl ⟨failure, target, ?_⟩
    simp [statusOf, outline, stage]
  | cancelled outline stopped failure target =>
    refine .inl ⟨failure, target, ?_⟩
    simp [statusOf, outline, stopped]
  | failed outline stage unwritten failure target =>
    refine .inl ⟨failure, target, ?_⟩
    simp [statusOf, outline, stage, unwritten, target]
  | written outline stage unwritten failure target output =>
    refine .inr ⟨failure, target, output, ?_⟩
    simp only [statusOf, Option.isNone_iff_eq_none, stage, unwritten, target]
    cases item.cached <;> cases item.fallback <;> simp

section Judge

variable (v : Assessment.Validator) (modules : Table String Assessment.ModuleCheck)

@[simp] theorem source_judge (item : Item) : (judge v modules item).source = item.source := by
  unfold judge
  split <;> rfl

@[simp] theorem target_judge (item : Item) : (judge v modules item).target = item.target := by
  unfold judge
  split <;> rfl

@[simp] theorem output_judge (item : Item) : (judge v modules item).output = item.output := by
  unfold judge
  split <;> rfl

@[simp] theorem statusOf_judge (item : Item) : statusOf (judge v modules item) = statusOf item := by
  unfold judge
  split <;> rfl

/-- A file without a Go file is not judged. -/
theorem judge_of_target {item : Item} (h : item.target = none) : judge v modules item = item := by
  unfold judge
  rw [h]
  split
  · next heq => cases heq
  · rfl

/-- A file with a Go file is. -/
theorem exists_judge_of_written {item : Item} (htarget : item.target ≠ none)
    (houtput : item.output ≠ none) :
    ∃ validation, judge v modules item = { item with validation := some validation } := by
  obtain ⟨path, hpath⟩ := Option.ne_none_iff_exists'.1 htarget
  obtain ⟨content, hcontent⟩ := Option.ne_none_iff_exists'.1 houtput
  unfold judge
  split
  · exact ⟨_, rfl⟩
  · next hnot => exact absurd hpath (hnot content path hcontent)

/-- What a report tells about a file that is settled is as its status says. -/
theorem Settled.told {output : Path} {a : Analyzed} {item : Item} {s : Shared σ}
    (h : Settled output a item s) : Told (judge v modules item) := by
  have hapart {status : Status} (hgave : status ∈ [.parseFailed, .cancelled, .failed]) :
      status ∉ [.translated, .cached, .fallback] := by
    cases status <;> simp at hgave ⊢
  rcases h.ended.status with ⟨hfailure, htarget, hstatus⟩ | ⟨hfailure, htarget, houtput, hstatus⟩
  · rw [judge_of_target v modules htarget]
    have hnot := hapart hstatus
    exact ⟨iff_of_true hfailure hstatus, iff_of_false (not_not.2 htarget) hnot,
      iff_of_false (not_not.2 h.unjudged) hnot⟩
  · obtain ⟨validation, hjudge⟩ := exists_judge_of_written v modules htarget houtput
    rw [hjudge]
    exact ⟨iff_of_false (not_not.2 hfailure) fun hgave => hapart hgave hstatus,
      iff_of_true htarget hstatus, iff_of_true (Option.some_ne_none _) hstatus⟩

end Judge

/-! ## The end of a run -/

/-- The end of a run changes only files right in the directory of the output. -/
theorem files_conclude (service : Service σ) (v : Assessment.Validator) (r : Request)
    (found : Scan.Result) (items : List Item) (s : Shared σ) :
    s.files.Writes (Closing (s.files.placeOf r.output))
      (conclude service v r found items s).2.files := by
  obtain ⟨houtput, -, hfiles⟩ := conclude_spec service v r found items s
  have hdescribed := files_describe r (items.mergeSort fun a b => a.source.path.le b.source.path) s
  have hsaved := files_saveReport (conclude service v r found items s).1
    (describe r (items.mergeSort fun a b => a.source.path.le b.source.path) s).2.files
  rw [hfiles]
  rw [houtput, hdescribed.placeOf] at hsaved
  exact hdescribed.trans hsaved

/-- So a Go file stays as it is. -/
theorem relies_conclude (service : Service σ) (v : Assessment.Validator) (r : Request)
    (found : Scan.Result) (items : List Item) (s : Shared σ) {p : Layout.Placement} (hp : Proper p) :
    Relies (Layout.targetPath r.output p) s (conclude service v r found items s).2 := by
  refine (files_conclude service v r found items s).mono fun place hplace heq => ?_
  obtain ⟨name, -, hname⟩ := hplace
  rw [heq, hp.placeOf] at hname
  simpa using congrArg List.length hname

/-- A report holds the files that are judged, in the order of their paths. -/
theorem exists_items_conclude (service : Service σ) (v : Assessment.Validator) (r : Request)
    (found : Scan.Result) (items : List Item) (s : Shared σ) :
    (conclude service v r found items s).1.skipped = found.skipped ∧
      ∃ modules, (conclude service v r found items s).1.items =
        (items.mergeSort fun a b => a.source.path.le b.source.path).map (judge v modules) := by
  unfold conclude
  exact ⟨rfl, _, rfl⟩

/-! ## The report -/

section Settled

variable {output : Path} {as : List Analyzed} {items : List Item} {s : Shared σ}

theorem exists_of_mem_settled
    (h : List.Forall₂ (fun a item => Settled output a item s) as items) {item : Item}
    (hitem : item ∈ items) : ∃ a ∈ as, Settled output a item s :=
  Task.exists_of_mem_forall₂ h hitem

theorem paths_settled (h : List.Forall₂ (fun a item => Settled output a item s) as items) :
    items.map (·.source.path) = as.map (·.file.path) := by
  induction h with
  | nil => rfl
  | cons ha _ ih => rw [List.map_cons, List.map_cons, ih, ha.source]

/-- The Go files of settled files are different files. -/
theorem nodup_targets (h : List.Forall₂ (fun a item => Settled output a item s) as items)
    (hne : as.Pairwise fun a b => a.placement ≠ b.placement) (hproper : ∀ a ∈ as, Proper a.placement)
    (files : Files) : ((items.filterMap (·.target)).map files.placeOf).Nodup := by
  induction h with
  | nil => exact List.nodup_nil
  | @cons a item as items ha hrest ih =>
    obtain ⟨hfirst, hne⟩ := List.pairwise_cons.1 hne
    have hrestNodup := ih hne fun b hb => hproper b (.tail _ hb)
    rw [List.filterMap_cons]
    split
    · exact hrestNodup
    · next path hpath =>
      refine List.nodup_cons.2 ⟨fun hmem => ?_, hrestNodup⟩
      obtain ⟨other, hother, hplace⟩ := List.mem_map.1 hmem
      obtain ⟨later, hlater, htarget⟩ := List.mem_filterMap.1 hother
      obtain ⟨b, hb, hsettled⟩ := exists_of_mem_settled hrest hlater
      rw [(hsettled.target other htarget).1, (ha.target path hpath).1] at hplace
      exact placeOf_targetPath_ne (hproper b (.tail _ hb)) (hproper a (.head _)) (hfirst b hb).symm
        files output hplace

end Settled

/-- A report about a run that found the source files of an input in a tree of files, and that has
left another tree. -/
structure Report.Accounts (report : Report) (found last : Files) (input : Path) : Prop where
  /-- The files that were discovered are different files, and each is listed once: as one that was
  skipped, or as one of the files. -/
  listed : ∃ paths, Scan.candidates found input = .ok paths ∧ (paths.map found.canonical).Nodup ∧
    (report.skipped.map (fun s : Scan.Skipped => found.canonical s.path) ++
      report.items.map fun i : Item => Except.ok i.source.path).Perm (paths.map found.canonical)
  sorted : report.items.Pairwise fun a b => a.source.path.le b.source.path
  told : ∀ item ∈ report.items, Told item
  /-- The Go files are in different places. -/
  apart : ((report.items.filterMap (·.target)).map last.placeOf).Nodup
  /-- Each of them holds the output of its file. -/
  held : ∀ item ∈ report.items, ∀ path, item.target = some path →
    ∃ content, item.output = some content ∧ last.read path = .ok content.toUTF8

theorem wellFormed_openFor (r : Request) {files : Files} (hfiles : files.WellFormed) (outside : σ) :
    (Shared.openFor r files outside).files.WellFormed :=
  (Cache.writes_openIn (W := fun _ => False) ..).wellFormed hfiles

/-- Whatever the service, the cancellation, the writes that fail and the order of the steps of the
workers are, the report of a run drops nothing. -/
theorem completes_accounts {service : Service σ} {v : Assessment.Validator} {r : Request}
    {refuses : Layout.Placement → Option Layout.WriteError} {files : Files} {outside : σ}
    {report : Report} {last : Shared σ} (hnames : r.tools.layout.NamesPackages)
    (hfiles : files.WellFormed)
    (h : Completes service v r refuses files outside report last) :
    report.Accounts (Shared.openFor r files outside).files last.files r.input := by
  cases h with
  | @intro found log outlines analyzed worked items pushed scanned first second order =>
  have hlength : outlines.length = found.files.length := by
    rw [first.length_eq, List.length_map]
  have hsettled := settled_of_interleave hnames hlength _ refuses second
  have hproper (a : Analyzed) (ha : a ∈ assign r found outlines) := proper_assign hnames hlength ha
  obtain ⟨hskipped, modules, hitems⟩ := exists_items_conclude service v r found pushed worked
  have hrelies {p : Layout.Placement} := relies_conclude service v r found pushed worked (p := p)
  generalize conclude service v r found pushed worked = concluded at *
  have hperm := (List.mergeSort_perm pushed fun a b => a.source.path.le b.source.path).trans order
  have hmem {item : Item} (hitem : item ∈ concluded.1.items) :
      ∃ original, judge v modules original = item ∧
        ∃ a ∈ assign r found outlines, Settled r.output a original worked := by
    rw [hitems] at hitem
    obtain ⟨original, hpushed, hjudge⟩ := List.mem_map.1 hitem
    exact ⟨original, hjudge, exists_of_mem_settled hsettled (hperm.subset hpushed)⟩
  refine ⟨?_, ?_, fun item hitem => ?_, ?_, fun item hitem path hpath => ?_⟩
  · obtain ⟨paths, hcandidates, hnodup, hfound⟩ :=
      Scan.perm_of_scan (wellFormed_openFor r hfiles outside) scanned
    refine ⟨paths, hcandidates, hnodup, .trans ?_ hfound⟩
    have hpaths : (concluded.1.items.map (·.source.path)).Perm (found.files.map (·.path)) := by
      rw [hitems, List.map_map, ← files_assign r found hlength, List.map_map]
      simp only [Function.comp_def, source_judge]
      rw [← paths_settled hsettled]
      exact hperm.map _
    rw [hskipped]
    have hlisted := hpaths.map (Except.ok : Path → Except FileError Path)
    rw [List.map_map, List.map_map] at hlisted
    exact hlisted.append_left _
  · rw [hitems, List.pairwise_map]
    simp only [source_judge]
    have htrans (a b c : Item) (h : a.source.path.le b.source.path = true)
        (h' : b.source.path.le c.source.path = true) : a.source.path.le c.source.path = true :=
      Path.le_trans h h'
    exact List.pairwise_mergeSort htrans (fun a b => Path.le_total a.source.path b.source.path) _
  · obtain ⟨original, rfl, a, -, ha⟩ := hmem hitem
    exact ha.told v modules
  · rw [hitems, List.filterMap_map]
    simp only [Function.comp_def, target_judge]
    have hnodup := nodup_targets hsettled (pairwise_assign hlength) hproper concluded.2.files
    have htargets := (hperm.filterMap (·.target)).map concluded.2.files.placeOf
    exact htargets.nodup_iff.2 hnodup
  · obtain ⟨original, rfl, a, hmemAssign, ha⟩ := hmem hitem
    rw [target_judge] at hpath
    obtain ⟨rfl, content, hcontent, hread⟩ := ha.target path hpath
    refine ⟨content, ?_, read_of_relies (hrelies (hproper a hmemAssign)) hread⟩
    rw [output_judge]
    exact hcontent

/-- A run over two files of one name, with neither a cache nor an index. -/
def plainRequest : Request where
  input := ⟨"in"⟩
  output := ⟨"out"⟩
  tools := { cache := { backend := .none }, index := { enabled := false } }

theorem completes_accounts_two :
    let files := inputTree [["a", "utils.py"], ["b", "utils.py"]]
    plainRequest.tools.layout.NamesPackages ∧ files.WellFormed ∧ ∃ report last,
      Completes (Programmed.service .usual) {} plainRequest (fun _ => none) files Programmed.usual report last ∧
        report.Accounts files last.files ⟨"in"⟩ ∧ report.skipped.length + report.items.length = 2 := by
  intro files
  have hnames : plainRequest.tools.layout.NamesPackages := ⟨by decide, by decide⟩
  have hfiles : files.WellFormed := by decide +kernel
  have hcandidates : Scan.candidates files ⟨"in"⟩ = .ok [⟨"in/a/utils.py"⟩, ⟨"in/b/utils.py"⟩] := by
    decide +kernel
  obtain ⟨found, log, hfound, -⟩ := Scan.exists_scan (s := {}) hcandidates (by decide)
  have hscan : Scan.scan plainRequest.tools.scan
      (Shared.openFor plainRequest files Programmed.usual).files plainRequest.input =
        .ok (found, log) := hfound
  have hcompletes := completes_runOn (Programmed.service .usual) {} plainRequest hscan
  have haccounts := completes_accounts hnames hfiles hcompletes
  refine ⟨hnames, hfiles, _, _, hcompletes, haccounts, ?_⟩
  obtain ⟨paths, hpaths, -, hperm⟩ := haccounts.listed
  cases hcandidates.symm.trans hpaths
  simpa using hperm.length_eq

end Recast.Run
