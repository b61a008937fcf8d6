/-
  Proofs/Meaning/Counts.lean --- how many records a file has, and how many its summary tells.

  The summary of a file that is indexed counts its declarations.  The records stand under their
  subjects and names (`Draft.label`): functions under their qualified names, and classes among them
  as `class_<Name>`.  A name that comes twice gets one record (`tally_eq`), so that the summary
  counts what is stored just if no two declarations of the file share a name (`tally_eq_iff`).
-/
import Recast.Proofs.Layout.Reordered
import Recast.Proofs.Meaning.History
import Recast.Proofs.Meaning.Replacing
import Recast.Proofs.Outline.Names

set_option autoImplicit false

namespace Recast

namespace Meaning

/-- The number of records about a file and a kind of subject. -/
def Records.tally (r : Records) (path : Path) (subject : Subject) : Nat :=
  (r.about path).values.countP fun record => record.payload.subject == subject

namespace Index

variable {calls : Index.Calls} {ix next : Index} {path : Path} {stem : String} {o : Outline}
  {ds : List Draft} {es : List (String × Record)} {summary : Summary}

/-! ## Records by label -/

/-- What tells the record of a draft apart from others about the same file. -/
def Draft.label (d : Draft) : Subject × Option String := (d.subject, d.name)

/-- Keys of records of one file that no digest confuses. -/
def DigestsApart (path : Path) (ds : List Draft) : Prop :=
  ∀ d ∈ ds, ∀ e ∈ ds, Digest.ofString (keyText path d) = Digest.ofString (keyText path e) →
    keyText path d = keyText path e

/-- The names that functions and classes are recorded under. -/
def recordedNames (o : Outline) : List String :=
  o.functions.map (·.qualifiedName) ++ o.classes.map fun c => "class_" ++ c.name

/-- The names of the records of a kind, one for each draft. -/
def namesOf (o : Outline) : Subject → List (Option String)
  | .file => [none]
  | .function => (recordedNames o).map some
  | .relation => o.importedModules.map some

theorem DigestsApart.of_nodup (h : ((ds.map (keyText path)).dedup.map Digest.ofString).Nodup) :
    DigestsApart path ds :=
  fun _ hd _ he => eq_of_digest_eq h _ (List.mem_map_of_mem hd) _ (List.mem_map_of_mem he)

theorem DigestsApart.key_eq_iff (h : DigestsApart path (drafts stem o)) {d e : Draft}
    (hd : d ∈ drafts stem o) (he : e ∈ drafts stem o) :
    d.key path = e.key path ↔ d.label = e.label := by
  rw [Draft.label, Draft.label, label_eq_iff hd he]
  refine ⟨fun hkey => ?_, fun ⟨hsubject, hname⟩ => ?_⟩
  · rw [key_eq, key_eq] at hkey
    have htext := congrArg String.toList (h d hd e he (digest_eq_of_hex hkey))
    rw [toList_keyText, toList_keyText] at htext
    obtain ⟨htag, hrest⟩ := append_cons_inj (zero_notMem_tag _) (zero_notMem_tag _) htext
    have hname := List.append_cancel_left hrest
    exact ⟨tag_injective (String.toList_inj.1 htag),
      String.toList_inj.1 (List.cons.inj hname).2⟩
  · rw [Draft.key, Draft.key, hsubject, hname]

theorem labels_drafts (stem : String) (o : Outline) : (drafts stem o).map Draft.label =
    (namesOf o .file).map (.file, ·) ++ (namesOf o .function).map (.function, ·) ++
      (namesOf o .relation).map (.relation, ·) := by
  simp [drafts, Draft.label, namesOf, recordedNames, relations, Function.comp_def]

theorem filter_map_label (subject other : Subject) (names : List (Option String)) :
    ((names.map fun name => (other, name)).filter fun l => l.1 == subject) =
      if other = subject then names.map fun name => (other, name) else [] := by
  rw [List.filter_map]
  split
  · next h => simp [Function.comp_def, h]
  · next h => simp [Function.comp_def, h]

theorem filter_labels (stem : String) (o : Outline) (subject : Subject) :
    (((drafts stem o).map Draft.label).filter fun l => l.1 == subject) =
      (namesOf o subject).map fun name => (subject, name) := by
  rw [labels_drafts, List.filter_append, List.filter_append, filter_map_label, filter_map_label,
    filter_map_label]
  cases subject <;> simp

/-- Drafts that are embedded give entries with their keys and payloads. -/
theorem Embedded.map_eq {n : Nat} (h : Embedded calls path n ds es) :
    (es.map fun x => (x.1, x.2.payload)) = ds.map fun d => (d.key path, d.payload path) := by
  induction h with
  | nil n => rfl
  | cons _ _ ih => exact congrArg (_ :: ·) ih

/-- The drafts of a file that no later one with the same key replaces. -/
def kept (path : Path) (ds : List Draft) : List Draft :=
  ds.pwFilter fun d later => d.key path ≠ later.key path

/-- The records of a file say what those of its drafts say that are not replaced. -/
theorem payloads_perm {n : Nat} (hembedded : Embedded calls path n ds es) :
    ((Table.ofList es).values.map (·.payload)).Perm ((kept path ds).map (·.payload path)) := by
  have hpairs := congrArg (List.pwFilter fun x later : String × Payload => x.1 ≠ later.1)
    hembedded.map_eq
  rw [List.pwFilter_map, List.pwFilter_map] at hpairs
  have hpayloads := congrArg (List.map Prod.snd) hpairs
  rw [List.map_map, List.map_map] at hpayloads
  rw [Table.values, List.map_map]
  exact ((Table.entries_ofList_perm es).map _).trans (.of_eq hpayloads)

theorem DigestsApart.kept_eq (h : DigestsApart path (drafts stem o)) :
    kept path (drafts stem o) = lasting (drafts stem o) :=
  pwFilter_congr fun _ hd _ he => not_congr (h.key_eq_iff hd he)

/-- Drafts that are kept have different labels. -/
theorem nodup_labels_kept (path : Path) (ds : List Draft) :
    ((kept path ds).map Draft.label).Nodup := by
  refine List.pairwise_map.2 ((List.pairwise_pwFilter ds).imp fun {d later} hkey hlabel => hkey ?_)
  obtain ⟨hsubject, hname⟩ := Prod.mk.inj hlabel
  rw [Draft.key, Draft.key, hsubject, hname]

/-- Labels that come more than once count once. -/
theorem labels_lasting (ds : List Draft) :
    (lasting ds).map Draft.label = (ds.map Draft.label).dedup := by
  rw [List.dedup, List.pwFilter_map]
  rfl

theorem countP_dedup {α : Type} [DecidableEq α] (p : α → Bool) (l : List α) :
    l.dedup.countP p = (l.filter p).dedup.length := by
  rw [List.countP_eq_length_filter]
  refine ((List.perm_ext_iff_of_nodup ((List.nodup_dedup l).filter p) (List.nodup_dedup _)).2
    fun a => ?_).length_eq
  simp

theorem label_injective (subject : Subject) :
    Function.Injective fun name : Option String => (subject, name) :=
  fun _ _ h => (Prod.mk.inj h).2

theorem length_dedup_labels (stem : String) (o : Outline) (subject : Subject) :
    (((drafts stem o).map Draft.label).filter fun l => l.1 == subject).dedup.length =
      (namesOf o subject).dedup.length := by
  rw [filter_labels, List.dedup_map_of_injective (label_injective subject), List.length_map]

/-! ## The records that are counted -/

section Tally

variable (hembedded : Embedded calls path 0 (drafts stem o) es)
  (habout : next.records.about path = .ofList es)
include hembedded habout

theorem tally_eq_length (subject : Subject) : next.records.tally path subject =
    (((kept path (drafts stem o)).map Draft.label).filter fun l => l.1 == subject).length := by
  have hcount := (payloads_perm hembedded).countP_eq fun p => p.subject == subject
  rw [List.countP_map, List.countP_map, ← habout] at hcount
  rw [List.filter_map, List.length_map, ← List.countP_eq_length_filter]
  exact hcount

/-- A file has no more records of a kind than there are names for them. -/
theorem tally_le (subject : Subject) :
    next.records.tally path subject ≤ (namesOf o subject).dedup.length := by
  rw [tally_eq_length hembedded habout, ← length_dedup_labels stem]
  refine (List.subperm_of_subset ((nodup_labels_kept path _).filter _) fun l hl => ?_).length_le
  obtain ⟨hl, hsubject⟩ := List.mem_filter.1 hl
  exact List.mem_dedup.2 (List.mem_filter.2
    ⟨List.map_subset _ (List.pwFilter_subset _) hl, hsubject⟩)

/-- A file has as many records of a kind as there are names for them. -/
theorem tally_eq (hapart : DigestsApart path (drafts stem o)) (subject : Subject) :
    next.records.tally path subject = (namesOf o subject).dedup.length := by
  rw [tally_eq_length hembedded habout, hapart.kept_eq, labels_lasting,
    ← List.countP_eq_length_filter, countP_dedup, length_dedup_labels]

end Tally

/-- Every imported module comes once. -/
theorem nodup_namesOf_relation (o : Outline) : (namesOf o .relation).Nodup :=
  (Layout.nodup_eraseDups _).map fun _ _ => Option.some.inj

theorem nodup_labels_iff (stem : String) (o : Outline) :
    ((drafts stem o).map Draft.label).Nodup ↔ (namesOf o .function).Nodup := by
  have hmap (subject : Subject) (names : List (Option String)) :
      (names.map fun name => (subject, name)).Nodup ↔ names.Nodup :=
    List.nodup_map_iff (label_injective subject)
  have hapart {subject other : Subject} (hne : subject ≠ other)
      (names others : List (Option String)) : ∀ l ∈ names.map fun name => (subject, name),
        ∀ l' ∈ others.map fun name => (other, name), l ≠ l' := by
    simp only [List.mem_map]
    rintro _ ⟨name, -, rfl⟩ _ ⟨name', -, rfl⟩ h
    exact hne (Prod.mk.inj h).1
  rw [labels_drafts, List.nodup_append, List.nodup_append, hmap, hmap, hmap]
  refine ⟨fun h => h.1.2.1, fun h => ⟨⟨List.nodup_singleton none, h, hapart (by decide) _ _⟩,
    nodup_namesOf_relation o, fun l hl => ?_⟩⟩
  rcases List.mem_append.1 hl with hl | hl
  · exact hapart (by decide) _ _ l hl
  · exact hapart (by decide) _ _ l hl

/-- All drafts keep records of their own just if their labels differ. -/
theorem payloads_perm_iff (hapart : DigestsApart path (drafts stem o))
    (hembedded : Embedded calls path 0 (drafts stem o) es)
    (habout : next.records.about path = .ofList es) :
    ((next.records.about path).values.map (·.payload)).Perm
        ((drafts stem o).map (·.payload path)) ↔
      ((drafts stem o).map Draft.label).Nodup := by
  have hperm := payloads_perm hembedded
  rw [hapart.kept_eq] at hperm
  have hlasting : lasting (drafts stem o) = drafts stem o ↔
      ((drafts stem o).map Draft.label).Nodup :=
    List.pwFilter_eq_self.trans List.pairwise_map.symm
  rw [habout, ← hlasting]
  refine ⟨fun h => ?_, fun h => h ▸ hperm⟩
  have hlength := (hperm.symm.trans h).length_eq
  rw [List.length_map, List.length_map] at hlength
  exact (List.pwFilter_sublist _).eq_of_length hlength

/-- A file that is indexed has records for all its drafts, and no others. -/
theorem addOutline_ok (henabled : ix.enabled = true)
    (h : ix.addOutline path stem o = (.ok summary, next)) :
    summary = ⟨1, o.functions.length, o.classes.length, (relations stem o).length⟩ ∧
      ∃ es, Embedded (fun _ => ix.embedder.embed) path 0 (drafts stem o) es ∧
        next.records.about path = .ofList es := by
  rw [addOutline_eq_by] at h
  obtain ⟨hsummary, es, hembedded, rfl⟩ := addOutlineBy_ok henabled h
  exact ⟨hsummary, es, hembedded, about_replaced ix hembedded.sourcePath⟩

/-- Indexing a file does not fail in a new index. -/
theorem Fresh.addOutline_eq_ok {dimension : Nat} (h : ix.Fresh dimension) (path : Path)
    (stem : String) (o : Outline) : (ix.addOutline path stem o).1 =
      .ok ⟨1, o.functions.length, o.classes.length, (relations stem o).length⟩ :=
  Answer.indexed.inj ((h.built []).answers (.index path stem o))

theorem length_dedup_eq_iff {α : Type} [DecidableEq α] {l : List α} :
    l.dedup.length = l.length ↔ l.Nodup := by
  rw [← List.dedup_eq_self]
  exact ⟨(List.dedup_sublist l).eq_of_length, congrArg List.length⟩

end Index

/-! ## Outlines of texts -/

/-- An outline in which no two declarations are recorded under one name. -/
structure Distinct (o : Outline) : Prop where
  functions : (o.functions.map (·.qualifiedName)).Nodup
  classes : (o.classes.map (·.name)).Nodup
  /-- No function at the top level has the name that a class is recorded under. -/
  apart : ∀ f ∈ o.topLevelFunctions, ∀ c ∈ o.classes, f.name ≠ "class_" ++ c.name

theorem dot_notMem_of_isName {cs : List Char} (h : Python.isName cs = true) : '.' ∉ cs := by
  cases cs with
  | nil => exact nofun
  | cons c cs =>
    rw [Python.isName, Bool.and_eq_true, List.all_eq_true] at h
    intro hmem
    rcases List.mem_cons.1 hmem with rfl | hmem
    · exact absurd h.1 (by decide)
    · exact absurd (h.2 _ hmem) (by decide)

/-- A function whose qualified name has no dot is at the top level. -/
theorem isTopLevel_ofTree (lines : List (List Char)) (body : List Python.Stmt) :
    ∀ f ∈ (Outline.ofTree lines body).functions, '.' ∉ f.qualifiedName.toList →
      f.isTopLevel = true := by
  have hgiven : Outline.Given (fun _ => True)
      (fun f => '.' ∉ f.qualifiedName.toList → f.isTopLevel = true) := by
    refine ⟨fun _ _ _ _ _ => trivial, fun scope name params doc startLine endLine hdot => ?_⟩
    cases scope with
    | file => simp [Outline.functionDecl, FunctionDecl.isTopLevel]
    | inClass c => exact absurd (by simp [Outline.functionDecl]) hdot
    | inFunction f => exact absurd (by simp [Outline.functionDecl]) hdot
  exact (Outline.all_ofTree hgiven lines body).2

theorem classPrefix_injective : Function.Injective fun name : String => "class_" ++ name := by
  intro name other h
  have hlist := congrArg String.toList h
  rw [String.toList_append, String.toList_append] at hlist
  exact String.toList_inj.1 (List.append_cancel_left hlist)

/-- The names of the records of functions and classes differ just if the outline is distinct. -/
theorem nodup_namesOf_function_iff (lines : List (List Char)) (body : List Python.Stmt) :
    (Index.namesOf (Outline.ofTree lines body) .function).Nodup ↔
      Distinct (Outline.ofTree lines body) := by
  have htopLevel := isTopLevel_ofTree lines body
  have hnamed := (Outline.named_ofTree lines body).classes
  generalize Outline.ofTree lines body = o at htopLevel hnamed ⊢
  have hclasses : (o.classes.map fun c => "class_" ++ c.name) =
      (o.classes.map (·.name)).map fun name => "class_" ++ name := List.map_map.symm
  -- What a class is recorded under has no dot, so that only functions at the top level meet it.
  have hmeet {f : FunctionDecl} (hf : f ∈ o.functions) {c : ClassDecl} (hc : c ∈ o.classes)
      (h : f.qualifiedName = "class_" ++ c.name) : f.isTopLevel = true := by
    have hname := dot_notMem_of_isName (hnamed c hc)
    refine htopLevel f hf ?_
    rw [h]
    simp [hname]
  have hname {f : FunctionDecl} (h : f.isTopLevel = true) : f.qualifiedName = f.name := by
    simp only [FunctionDecl.isTopLevel, Bool.and_eq_true, beq_iff_eq] at h
    exact h.2
  rw [Index.namesOf, List.nodup_map_iff fun _ _ => Option.some.inj, Index.recordedNames,
    List.nodup_append, hclasses, List.nodup_map_iff classPrefix_injective, ← hclasses]
  simp only [List.forall_mem_map]
  constructor
  · rintro ⟨hfunctions, hclasses, hapart⟩
    refine ⟨hfunctions, hclasses, fun f hf c hc heq => ?_⟩
    obtain ⟨hf, htop⟩ := List.mem_filter.1 hf
    exact hapart f hf c hc ((hname htop).trans heq)
  · rintro ⟨hfunctions, hclasses, hapart⟩
    refine ⟨hfunctions, hclasses, fun f hf c hc heq => ?_⟩
    have htop := hmeet hf hc heq
    exact hapart f (List.mem_filter.2 ⟨hf, htop⟩) c hc ((hname htop).symm.trans heq)

/-- The summary of a tree that is indexed counts the file and its modules as they are stored, and its
functions and classes just if no two of them are recorded under one name; only then has each
declaration a record of its own. -/
theorem tally_ofTree_iff (lines : List (List Char)) (body : List Python.Stmt) {ix next : Index}
    {path : Path} {stem : String} {summary : Index.Summary} (henabled : ix.enabled = true)
    (hindex : ix.addOutline path stem (Outline.ofTree lines body) = (.ok summary, next))
    (hapart : Index.DigestsApart path (Index.drafts stem (Outline.ofTree lines body))) :
    next.records.tally path .file = summary.files ∧
    next.records.tally path .relation = summary.relations ∧
    (next.records.tally path .function = summary.functions + summary.classes ↔
      Distinct (Outline.ofTree lines body)) ∧
    (((next.records.about path).values.map (·.payload)).Perm
      ((Index.drafts stem (Outline.ofTree lines body)).map (·.payload path)) ↔
        Distinct (Outline.ofTree lines body)) := by
  obtain ⟨rfl, es, hembedded, habout⟩ := Index.addOutline_ok henabled hindex
  have htally := Index.tally_eq hembedded habout hapart
  have hdistinct := nodup_namesOf_function_iff lines body
  refine ⟨htally .file, ?_, ?_, ?_⟩
  · rw [htally, (Index.nodup_namesOf_relation _).dedup]
    simp [Index.namesOf, relations]
  · rw [htally, ← hdistinct, ← Index.length_dedup_eq_iff]
    simp [Index.namesOf, Index.recordedNames]
  · rw [Index.payloads_perm_iff hapart hembedded habout, Index.nodup_labels_iff, hdistinct]

/-- So it is in a text, whose outline is that of the tree it parses to. -/
theorem tally_eq_iff {text : List Char} {o : Outline} {ix next : Index} {path : Path}
    {stem : String} {summary : Index.Summary} (htext : Outline.ofText text = .ok o)
    (henabled : ix.enabled = true) (hindex : ix.addOutline path stem o = (.ok summary, next))
    (hapart : Index.DigestsApart path (Index.drafts stem o)) :
    next.records.tally path .file = summary.files ∧
    next.records.tally path .relation = summary.relations ∧
    (next.records.tally path .function = summary.functions + summary.classes ↔ Distinct o) ∧
    (((next.records.about path).values.map (·.payload)).Perm
      ((Index.drafts stem o).map (·.payload path)) ↔ Distinct o) := by
  obtain ⟨body, -, rfl⟩ := Outline.ofText_eq_ok_iff.1 htext
  exact tally_ofTree_iff _ body henabled hindex hapart

/-- A class, a function and an imported module. -/
theorem tally_eq_iff_of_module :
    let text := "import os\n\nclass A:\n    pass\n\ndef f():\n    pass\n"
    ∃ o summary next, Outline.ofText text.toList = .ok o ∧
      Index.newIndex.addOutline ⟨"/a.py"⟩ "a" o = (.ok summary, next) ∧
      Index.DigestsApart ⟨"/a.py"⟩ (Index.drafts "a" o) ∧ summary = ⟨1, 1, 1, 1⟩ ∧
      next.records.tally ⟨"/a.py"⟩ .file = 1 ∧ next.records.tally ⟨"/a.py"⟩ .function = 2 ∧
      next.records.tally ⟨"/a.py"⟩ .relation = 1 := by
  intro text
  have hrun : (Python.parse? text.toList).any (fun body =>
      let o := Outline.ofTree (Text.lines text.toList) body
      let texts := (Index.drafts "a" o).map (Index.keyText ⟨"/a.py"⟩)
      decide ((texts.dedup.map Digest.ofString).Nodup ∧ (Index.namesOf o .function).Nodup ∧
        (⟨1, o.functions.length, o.classes.length, (relations "a" o).length⟩ : Index.Summary) =
          ⟨1, 1, 1, 1⟩)) = true := by
    decide +kernel
  obtain ⟨body, hparse, hrun⟩ := (Option.any_eq_true _ _).1 hrun
  obtain ⟨hdigests, hnames, hsummary⟩ := of_decide_eq_true hrun
  have houtline := Outline.ofText_eq_ok_iff.2 ⟨body, hparse, rfl⟩
  have hfresh : Index.newIndex.Fresh 1 := ⟨rfl, rfl, rfl⟩
  have hok := hfresh.addOutline_eq_ok ⟨"/a.py"⟩ "a" (Outline.ofTree (Text.lines text.toList) body)
  rw [hsummary] at hok
  have hapart := Index.DigestsApart.of_nodup hdigests
  obtain ⟨hfile, hrelation, hfunction, -⟩ := tally_eq_iff houtline rfl (Prod.ext hok rfl) hapart
  exact ⟨_, _, _, houtline, Prod.ext hok rfl, hapart, rfl, hfile,
    hfunction.2 ((nodup_namesOf_function_iff _ body).1 hnames), hrelation⟩

/-- A text for which more functions and classes are counted than stored. -/
def Overcounted (text : String) : Prop :=
  ∃ o summary next, Outline.ofText text.toList = .ok o ∧
    Index.newIndex.addOutline ⟨"/a.py"⟩ "a" o = (.ok summary, next) ∧
    next.records.tally ⟨"/a.py"⟩ .function < summary.functions + summary.classes

theorem overcounted_of_shared {text : String}
    (h : (Python.parse? text.toList).any (fun body =>
      let o := Outline.ofTree (Text.lines text.toList) body
      decide ((Index.namesOf o .function).dedup.length <
        o.functions.length + o.classes.length)) = true) : Overcounted text := by
  obtain ⟨body, hparse, hshared⟩ := (Option.any_eq_true _ _).1 h
  have hfresh : Index.newIndex.Fresh 1 := ⟨rfl, rfl, rfl⟩
  have hok := hfresh.addOutline_eq_ok ⟨"/a.py"⟩ "a" (Outline.ofTree (Text.lines text.toList) body)
  have hindex : Index.newIndex.addOutline _ _ _ = (_, _) := Prod.ext hok rfl
  obtain ⟨-, es, hembedded, habout⟩ := Index.addOutline_ok rfl hindex
  exact ⟨_, _, _, Outline.ofText_eq_ok_iff.2 ⟨body, hparse, rfl⟩, hindex,
    Nat.lt_of_le_of_lt (Index.tally_le hembedded habout .function) (of_decide_eq_true hshared)⟩

/-- A function can have the name that a class is recorded under, and a property has that of its
setter. -/
theorem overcounted_class_property :
    Overcounted "class A:\n    pass\n\ndef class_A():\n    pass\n" ∧
      Overcounted ("class A:\n    @property\n    def x(self):\n        return 1\n\n" ++
        "    @x.setter\n    def x(self, v):\n        pass\n") :=
  ⟨overcounted_of_shared (by decide +kernel), overcounted_of_shared (by decide +kernel)⟩

end Meaning

end Recast
