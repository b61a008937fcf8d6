/-
  Proofs/Run/Analyzing.lean --- the first pass, in any order.

  The analysis of a file sees the entry of the file in the cache and what the index says about it, and
  it changes nothing else (`Analysis.Sight`, `Analysis.Effect`).  So the analyses of different files
  neither see nor undo what the others do (`Analysis.apart`), as long as what they share is
  intact (`Analysis.Intact`): digests tell the files apart, and the index holds no record under the key of one
  of them that is about another one.
-/
import Recast.Proofs.Meaning.Order
import Recast.Proofs.Run.Stock

set_option autoImplicit false

namespace Recast.Run

open Meaning.Index (Draft drafts recordKey)

variable {σ : Type}

namespace Analysis

/-! ## Sights and effects -/

/-- What the analysis of a file sees of what is shared: the entry of the file, whether there is an
index, whether it has lost the file, and which records it refuses. -/
structure Sight where
  entry : Option Cache.Entry
  enabled : Bool
  lost : Bool
  refusal? : Draft → Option Meaning.IndexError

/-- What the analysis of a file sees. -/
def see (path : Path) (c : Stock) : Sight where
  entry := c.cache.remembers c.files path
  enabled := c.index.enabled
  lost := (c.index.fileMeaning? path).isNone
  refusal? := c.index.refusal? path

/-- An entry that fits, with an outline that is known if it is about the content of a file. -/
structure Clean (known : Outline → Prop) (file : SourceFile) (e : Cache.Entry) : Prop where
  fits : e.Fits
  outline : e.digest = file.digest → ∀ o, e.outline = some o → known o

/-- What the analysis of a file can do. -/
inductive Effect (known : Outline → Prop) (file : SourceFile) where
  /-- Nothing. -/
  | rest
  /-- Store an entry of the file. -/
  | keep (entry : Cache.Entry) (h : Clean known file entry)
  /-- Drop what the index knows about the file. -/
  | forget
  /-- Enter a record that an outline of the file gives. -/
  | enter (d : Draft) (h : ∃ o, known o ∧ d ∈ drafts file.path.stem o)

section Effects

variable {known : Outline → Prop} {file : SourceFile}

/-- Has an effect. -/
def perform : Effect known file → Stock → Stock
  | .rest, c => c
  | .keep entry _, c => c.keep file.path entry
  | .forget, c => { c with index := (c.index.removeFile file.path).2 }
  | .enter d _, c => { c with index := c.index.enter file.path d }

variable (known file) in
/-- The hand of the worker that analyzes a file. -/
def hand : Task.Hand Stock where
  Sight := Sight
  Effect := Effect known file
  see := see file.path
  perform := perform

end Effects

/-! ## What is relied on -/

/-- A key of a record that a file can have. -/
def HasKey (known : Outline → Prop) (path : Path) (key : String) : Prop :=
  key = recordKey .file path "" ∨ ∃ o, known o ∧ ∃ d ∈ drafts path.stem o, key = d.key path

/-- Files with known outlines that paths and digests tell apart: there is one of each path, and their
entries in the cache and their records in the index have keys of their own. -/
structure Keyed (known : SourceFile → Outline → Prop) (sources : List SourceFile) : Prop where
  once : (sources.map (·.path)).Nodup
  paths : ∀ a ∈ sources, ∀ b ∈ sources, a.path.same b.path = true → a.path = b.path
  entries : ∀ a ∈ sources, ∀ b ∈ sources, Cache.ToldApart a.path b.path
  records : ∀ a ∈ sources, ∀ b ∈ sources, ∀ key, HasKey (known a) a.path key →
    HasKey (known b) b.path key → a.path = b.path

/-- What is shared is intact: the cache does not fail, and it and the index say of each file only what
they should. -/
structure Intact (output : Path) (known : SourceFile → Outline → Prop)
    (sources : List SourceFile) (c : Stock) : Prop where
  served : Served output c.cache c.files
  uniform : ∃ length, c.index.Uniform length
  owned : c.index.Owned (sources.map (·.path))
  clean : ∀ file ∈ sources, ∀ e, c.cache.remembers c.files file.path = some e →
    Clean (known file) file e

section Effects

variable {output : Path} {known : SourceFile → Outline → Prop}
  {sources : List SourceFile} {c : Stock} {a b : SourceFile}

/-- Every effect leaves what is shared intact. -/
theorem Intact.perform (h : Intact output known sources c) (hkeyed : Keyed known sources)
    (ha : a ∈ sources) (e : Effect (known a) a) :
    Intact output known sources (perform e c) := by
  obtain ⟨length, huniform⟩ := h.uniform
  cases e with
  | rest => exact h
  | keep entry hentry =>
    refine ⟨(h.served.keep a.path entry).1, ⟨length, huniform⟩, h.owned, fun b hb e he => ?_⟩
    by_cases hpath : a.path = b.path
    · cases List.inj_on_of_nodup_map hkeyed.once ha hb hpath
      rw [h.served.remembers_keep_self a.path hentry.fits he]
      exact ⟨⟨hentry.fits.outline, hentry.fits.translation⟩, hentry.outline⟩
    · refine h.clean b hb e ?_
      rw [← h.served.remembers_keep hpath (hkeyed.entries a ha b hb) entry]
      exact he
  | forget =>
    exact ⟨h.served, ⟨length, huniform.removeFile _⟩, h.owned.removeFile _, h.clean⟩
  | enter d hd =>
    obtain ⟨o, ho, hd⟩ := hd
    refine ⟨h.served, ⟨length, huniform.enter _ d⟩, ?_, h.clean⟩
    refine h.owned.enter huniform (fun path hpath hsame => ?_) fun path hpath hkey => ?_
    · obtain ⟨b, hb, rfl⟩ := List.mem_map.1 hpath
      exact hkeyed.paths a ha b hb hsame
    · obtain ⟨b, hb, rfl⟩ := List.mem_map.1 hpath
      exact hkeyed.records a ha b hb _ (.inr ⟨o, ho, d, hd, rfl⟩) (.inl hkey)

/-- The analysis of a file sees nothing of what that of another one does. -/
theorem see_perform (h : Intact output known sources c) (hkeyed : Keyed known sources)
    (ha : a ∈ sources) (hb : b ∈ sources) (hne : a.path ≠ b.path) (e : Effect (known b) b) :
    see a.path (perform e c) = see a.path c := by
  obtain ⟨length, huniform⟩ := h.uniform
  have hsight {index : Meaning.Index} (huniform' : index.Uniform length)
      (henabled : index.enabled = c.index.enabled) (hembedder : index.embedder = c.index.embedder)
      (hmeaning : index.fileMeaning? a.path = c.index.fileMeaning? a.path) :
      see a.path { c with index } = see a.path c := by
    have hrefusal : index.refusal? a.path = c.index.refusal? a.path := by
      funext d
      rw [Meaning.Index.refusal?_of_uniform huniform', Meaning.Index.refusal?_of_uniform huniform,
        henabled, hembedder]
    unfold see
    dsimp only
    rw [henabled, hmeaning, hrefusal]
  cases e with
  | rest => rfl
  | keep entry hentry =>
    exact congrArg (Sight.mk · _ _ _)
      (h.served.remembers_keep (Ne.symm hne) (hkeyed.entries b hb a ha) entry)
  | forget =>
    exact hsight (huniform.removeFile _) rfl rfl (Meaning.Index.fileMeaning?_removeFile h.owned
      (List.mem_map_of_mem ha) (List.mem_map_of_mem hb) hne)
  | enter d hd =>
    obtain ⟨o, ho, hd⟩ := hd
    have hkey : recordKey .file a.path "" ≠ d.key b.path := fun heq =>
      hne (hkeyed.records a ha b hb _ (.inl rfl) (.inr ⟨o, ho, d, hd, heq⟩))
    refine hsight (huniform.enter _ d) ?_ ?_ (Meaning.Index.fileMeaning?_enter huniform hkey)
    · rw [Meaning.Index.enter_of_uniform huniform]
      rfl
    · rw [Meaning.Index.enter_of_uniform huniform]
      rfl

/-- Effects of the analyses of different files can be had in either order. -/
theorem perform_comm (h : Intact output known sources c) (hkeyed : Keyed known sources)
    (ha : a ∈ sources) (hb : b ∈ sources) (hne : a.path ≠ b.path) (e : Effect (known a) a)
    (e' : Effect (known b) b) : perform e (perform e' c) = perform e' (perform e c) := by
  obtain ⟨length, huniform⟩ := h.uniform
  have hsame : a.path.same b.path = false :=
    Bool.eq_false_iff.2 fun hsame => hne (hkeyed.paths a ha b hb hsame)
  have hsame' : b.path.same a.path = false := by rwa [Path.same_comm]
  cases e with
  | rest => rfl
  | keep entry hentry =>
    cases e' with
    | keep entry' hentry' =>
      exact (Stock.keep_keep h.served hne (hkeyed.entries a ha b hb) entry entry').symm
    | rest | forget | enter => rfl
  | forget =>
    cases e' with
    | rest | keep => rfl
    | forget =>
      exact congrArg (fun index => { c with index })
        (Meaning.Index.removeFile_removeFile c.index b.path a.path)
    | enter d' hd' =>
      exact congrArg (fun index => { c with index })
        (Meaning.Index.removeFile_enter huniform hsame' d').symm
  | enter d hd =>
    cases e' with
    | rest | keep => rfl
    | forget =>
      exact congrArg (fun index => { c with index })
        (Meaning.Index.removeFile_enter huniform hsame d)
    | enter d' hd' =>
      obtain ⟨o, ho, hd⟩ := hd
      obtain ⟨o', ho', hd'⟩ := hd'
      have hkey : d'.key b.path ≠ d.key a.path := fun heq =>
        hne (hkeyed.records a ha b hb _ (.inr ⟨o, ho, d, hd, heq⟩) (.inr ⟨o', ho', d', hd', rfl⟩))
      exact congrArg (fun index => { c with index }) (Meaning.Index.enter_enter huniform hkey)

/-- The analyses of different files neither see nor undo what the other one does. -/
theorem apart (hkeyed : Keyed known sources) (ha : a ∈ sources) (hb : b ∈ sources)
    (hne : a.path ≠ b.path) : (hand (known a) a).Apart (Intact output known sources)
      (hand (known b) b) where
  left _ hc := see_perform hc hkeyed ha hb hne
  right _ hc := see_perform hc hkeyed hb ha (Ne.symm hne)
  both _ hc := perform_comm hc hkeyed ha hb hne

end Effects

end Analysis

/-! ## The work on a file -/

namespace Work

open Analysis (Clean Effect Sight Intact Keyed)

section First

variable {output : Path} {known : SourceFile → Outline → Prop}
  {sources : List SourceFile} {file : SourceFile}

/-- Work in the first pass that does the same as long as it sees the same, and has equal results. -/
abbrev Analyzes {α β : Type} (output : Path) (known : SourceFile → Outline → Prop)
    (sources : List SourceFile) (file : SourceFile) (post : α → β → Prop) (t : Task (Shared σ) α)
    (t' : Task (Shared σ) β) : Prop :=
  let hand := Analysis.hand (known file) file
  let sound := Intact output known sources
  t.Tandem Shared.stock (hand.party sound) post (fun _ => sound) sound t'

/-- A step of the first pass. -/
theorem analyzes_act {α β γ : Type} (hkeyed : Keyed known sources) (hfile : file ∈ sources)
    {post : α → β → Prop} (answer : Sight → γ) (effect : Effect (known file) file)
    {g : Shared σ → α × Shared σ} {g' : Shared σ → β × Shared σ}
    (hview : ∀ s : Shared σ, Intact output known sources s.stock →
      (g s).2.stock = Analysis.perform effect s.stock ∧
        (g' s).2.stock = Analysis.perform effect s.stock)
    (hpost : ∀ s s' : Shared σ, Intact output known sources s.stock →
      Intact output known sources s'.stock →
        answer (Analysis.see file.path s'.stock) = answer (Analysis.see file.path s.stock) →
          post (g s).1 (g' s').1) :
    Analyzes output known sources file post (Task.act g) (Task.act g') :=
  Task.Tandem.act_of_hand (h := Analysis.hand (known file) file) answer (fun _ => effect) hview
    (fun e _ hc => hc.perform hkeyed hfile e) hpost

/-- A step that changes nothing that counts. -/
theorem analyzes_rest {α γ : Type} (hkeyed : Keyed known sources) (hfile : file ∈ sources)
    (answer : Sight → γ) {g : Shared σ → α × Shared σ} {post : α → α → Prop}
    (hview : ∀ s : Shared σ, Intact output known sources s.stock → (g s).2.stock = s.stock)
    (hpost : ∀ s s' : Shared σ, Intact output known sources s.stock →
      Intact output known sources s'.stock →
        answer (Analysis.see file.path s'.stock) = answer (Analysis.see file.path s.stock) →
          post (g s).1 (g s').1) :
    Analyzes output known sources file post (Task.act g) (Task.act g) :=
  analyzes_act hkeyed hfile answer .rest (fun s hs => ⟨hview s hs, hview s hs⟩) hpost

theorem analyzes_forget (hkeyed : Keyed known sources) (hfile : file ∈ sources) :
    Analyzes output known sources file (fun _ _ => True)
      (forget file.path : Task (Shared σ) Unit) (forget file.path) :=
  analyzes_act hkeyed hfile (fun _ => ()) .forget (fun _ _ => ⟨rfl, rfl⟩) fun _ _ _ _ _ => trivial

/-- Enters a record into the index, and tells why that fails. -/
def enter (path : Path) (d : Draft) (s : Shared σ) : Option Meaning.IndexError × Shared σ :=
  match s.index.put d.subject path d.name d.meaning d.metadata with
  | .ok index => (none, { s with index })
  | .error e => (some e, s)

theorem stock_enter (s : Shared σ) (path : Path) (d : Draft) :
    (enter path d s).1 = s.index.refusal? path d ∧
      (enter path d s).2.stock = { s.stock with index := s.index.enter path d } := by
  unfold enter Meaning.Index.refusal? Meaning.Index.enter
  cases s.index.put d.subject path d.name d.meaning d.metadata <;> exact ⟨rfl, rfl⟩

theorem analyzes_putAll (hkeyed : Keyed known sources) (hfile : file ∈ sources) {o : Outline}
    (ho : known file o) {ds : List Draft} (hds : ∀ d ∈ ds, d ∈ drafts file.path.stem o) :
    Analyzes output known sources file (fun _ _ => True)
      (putAll file.path ds : Task (Shared σ) Unit) (putAll file.path ds) := by
  induction ds with
  | nil => exact .pure trivial fun _ hc => hc
  | cons d ds ih =>
    obtain ⟨hd, hds⟩ := List.forall_mem_cons.1 hds
    have hentered : Analyzes output known sources file Eq
        (Task.act (enter file.path d : Shared σ → _)) (Task.act (enter file.path d)) := by
      refine analyzes_act hkeyed hfile (fun seen => seen.refusal? d) (.enter d ⟨o, ho, hd⟩)
        (fun s _ => ⟨(stock_enter s file.path d).2, (stock_enter s file.path d).2⟩)
        fun s s' _ _ hsame => ?_
      rw [(stock_enter s file.path d).1, (stock_enter s' file.path d).1]
      exact hsame.symm
    refine hentered.bind ?_
    rintro fault _ rfl
    cases fault with
    | none => exact ih hds
    | some e =>
      exact analyzes_rest hkeyed hfile (fun _ => ()) (fun _ _ => rfl) fun _ _ _ _ _ => trivial

/-- The records of a file are put into the index. -/
theorem analyzes_learn (hkeyed : Keyed known sources) (hfile : file ∈ sources) {o : Outline}
    (ho : known file o) : Analyzes output known sources file (fun _ _ => True)
      (learn file o : Task (Shared σ) Unit) (learn file o) := by
  have hasked : Analyzes output known sources file Eq
      (Task.act fun s : Shared σ => (s.index.enabled, s))
      (Task.act fun s : Shared σ => (s.index.enabled, s)) :=
    analyzes_rest hkeyed hfile Sight.enabled (fun _ _ => rfl) fun _ _ _ _ hsame => hsame.symm
  refine hasked.bind ?_
  rintro enabled _ rfl
  cases enabled with
  | true =>
    exact (analyzes_forget hkeyed hfile).bind fun _ _ _ =>
      analyzes_putAll hkeyed hfile ho fun _ hd => hd
  | false => exact .pure trivial fun _ hc => hc

/-- The same entry is loaded. -/
theorem analyzes_load (hkeyed : Keyed known sources) (hfile : file ∈ sources) :
    Analyzes output known sources file
      (fun e e' => e = e' ∧ ∀ entry, e = some entry → Clean (known file) file entry)
      (Task.act (load file.path : Shared σ → _)) (Task.act (load file.path)) := by
  refine analyzes_rest hkeyed hfile Sight.entry (fun s hs => ?_) fun s s' hs _ hsame => ?_
  · exact congrArg (Stock.mk · s.index s.files) (hs.served.load file.path)
  · exact ⟨hsame.symm, hs.clean file hfile⟩

/-- An entry with an outline that is stored is about the file. -/
theorem clean_keepOutline {outline : Outline} (ho : known file outline)
    (hparsed : Outline.ofBytes file.content = .ok outline) {entry : Option Cache.Entry}
    (hentry : ∀ e, entry = some e → Clean (known file) file e) :
    Clean (known file) file
      { (Cache.matching file.digest entry).getD { digest := file.digest } with
        outline := some outline } := by
  have hfits : (Cache.Part.outline outline).Fits := Outline.fits_of_ofBytes hparsed
  refine ⟨Cache.fits_change file.digest (fun e he => (hentry e he).fits) hfits, fun _ o heq => ?_⟩
  cases heq
  exact ho

theorem analyzes_analyzeAnew (hkeyed : Keyed known sources) (hfile : file ∈ sources)
    (hknown : ∀ o, Outline.ofBytes file.content = .ok o → known file o) :
    Analyzes output known sources file Eq
      (analyzeAnew file : Task (Shared σ) (Except String Outline)) (analyzeAnew file) := by
  unfold analyzeAnew
  split
  · exact (analyzes_forget hkeyed hfile).bind fun _ _ _ => .pure rfl fun _ hc => hc
  · next outline hparsed =>
    refine (analyzes_load hkeyed hfile).bind ?_
    rintro entry _ ⟨rfl, hentry⟩
    have hclean := clean_keepOutline (hknown outline hparsed) hparsed hentry
    have hkept : Analyzes output known sources file (fun _ _ => True)
        (Task.act (keepOutline file outline entry : Shared σ → _))
        (Task.act (keepOutline file outline entry)) :=
      analyzes_act hkeyed hfile (fun _ => ()) (.keep _ hclean) (fun _ _ => ⟨rfl, rfl⟩)
        fun _ _ _ _ _ => trivial
    exact hkept.bind fun _ _ _ => (analyzes_learn hkeyed hfile (hknown outline hparsed)).bind
      fun _ _ _ => .pure rfl fun _ hc => hc

/-- The outline that the cache has is looked up. -/
theorem analyzes_outline? (hkeyed : Keyed known sources) (hfile : file ∈ sources) :
    let ask : Shared σ → Option Outline × Shared σ := fun s =>
      let (outline, cache, log) := s.cache.outline? s.files file.path file.digest
      (outline, { s with cache }.say log)
    Analyzes output known sources file (fun o o' => o = o' ∧ ∀ outline, o = some outline →
      known file outline) (Task.act ask) (Task.act ask) := by
  intro ask
  refine analyzes_rest hkeyed hfile Sight.entry (fun s hs => ?_) fun s s' hs _ hsame => ?_
  · exact congrArg (Stock.mk · s.index s.files) (hs.served.load file.path)
  · change s'.cache.remembers s'.files file.path = s.cache.remembers s.files file.path at hsame
    dsimp only [ask]
    rw [Cache.fst_outline?, Cache.fst_outline?, hsame]
    refine ⟨rfl, fun outline houtline => ?_⟩
    obtain ⟨e, he, ho⟩ := Option.bind_eq_some_iff.1 houtline
    obtain ⟨he, hdigest⟩ := Option.filter_eq_some_iff.1 he
    exact (hs.clean file hfile e he).outline (of_decide_eq_true hdigest) outline ho

/-- The analysis of a file does the same as long as it sees the same. -/
theorem analyzes_analyze (hkeyed : Keyed known sources) (hfile : file ∈ sources)
    (hknown : ∀ o, file.HasOutline o → known file o) :
    Analyzes output known sources file Eq
      (analyze file : Task (Shared σ) (Except String Outline)) (analyze file) := by
  unfold analyze
  split
  · exact (analyzes_forget hkeyed hfile).bind fun _ _ _ => .pure rfl fun _ hc => hc
  · next hparses =>
    refine (analyzes_outline? hkeyed hfile).bind ?_
    rintro served _ ⟨rfl, hserved⟩
    cases served with
    | none => exact analyzes_analyzeAnew hkeyed hfile fun o ho => hknown o ⟨hparses, ho⟩
    | some outline =>
      have hasked : Analyzes output known sources file Eq
          (Task.act fun s : Shared σ => ((s.index.fileMeaning? file.path).isNone, s))
          (Task.act fun s : Shared σ => ((s.index.fileMeaning? file.path).isNone, s)) :=
        analyzes_rest hkeyed hfile Sight.lost (fun _ _ => rfl) fun _ _ _ _ hsame => hsame.symm
      refine hasked.bind ?_
      rintro lost _ rfl
      cases lost with
      | true =>
        exact (analyzes_learn hkeyed hfile (hserved outline rfl)).bind
          fun _ _ _ => .pure rfl fun _ hc => hc
      | false => exact .pure rfl fun _ hc => hc

end First

end Work

/-- Files are analyzed in any order of the steps: what is found out about them is the same, and so is
what is left in the end. -/
theorem analyzed_same {output : Path} {known : SourceFile → Outline → Prop}
    {sources : List SourceFile} (hkeyed : Analysis.Keyed known sources)
    (hknown : ∀ file ∈ sources, ∀ o, file.HasOutline o → known file o) {s analyzed : Shared σ}
    {outlines : List (Except String Outline)}
    (hs : Analysis.Intact output known sources s.stock)
    (h : Task.Interleave (sources.map Work.analyze) s outlines analyzed) :
    Analysis.Intact output known sources analyzed.stock ∧
      ∀ {s' analyzed' : Shared σ} {outlines' : List (Except String Outline)}, s'.stock = s.stock →
        Task.Interleave (sources.map Work.analyze) s' outlines' analyzed' →
          outlines' = outlines ∧ analyzed'.stock = analyzed.stock := by
  have hapart : Task.AllCompatible (fun file =>
      (Analysis.hand (known file) file).party (Analysis.Intact output known sources))
      sources := by
    refine (List.pairwise_map.1 hkeyed.once).imp_of_mem fun {a b} ha hb hne => ?_
    exact (Analysis.apart hkeyed ha hb hne).compatible (fun e _ hc => hc.perform hkeyed ha e)
      fun e _ hc => hc.perform hkeyed hb e
  have hready : Task.AllReady Shared.stock (fun file =>
      (Analysis.hand (known file) file).party (Analysis.Intact output known sources))
      sources s (sources.map Work.analyze) := by
    rw [Task.AllReady, List.forall₂_map_right_iff, List.forall₂_same]
    refine fun file hfile => ⟨_, rfl, hs, ?_⟩
    exact (Work.analyzes_analyze hkeyed hfile (hknown file hfile)).mono fun _ _ _ => trivial
  refine ⟨h.keeps hapart hready ?_ hs, fun hview h' => h.same h' hview hapart hready⟩
  rintro file hfile _ rfl β f ⟨answer, effect, rfl⟩ c - hc
  exact hc.perform hkeyed hfile _

end Recast.Run
