/-
  Proofs/Meaning/Index.lean --- what the index holds about each file.

  A record is put, or it is refused for one of two reasons (`put_cases`).  The records of an index
  fall apart by the files that they are about (`Records.about`).  Indexing a file replaces its own
  records by those that its outline gives, and leaves the records of all other files alone as far as
  keys tell them apart (`about_addOutline`).
-/
import Recast.Meaning.Index
import Recast.Proofs.Path
import Recast.Proofs.Table

set_option autoImplicit false

namespace Recast

namespace Meaning

/-! ## The vectors of texts -/

theorem length_normalized (v : Vector) : (normalized v).length = v.length := by
  unfold normalized
  dsimp only
  split
  · exact List.length_map _
  · rfl

/-- All vectors of a dimension have that many components. -/
theorem length_embed (dimension : Nat) (text : String) :
    (embed dimension text).length = max dimension 1 := by
  have hfold {add : Array Float32 → List Char → Array Float32}
      (hadd : ∀ v word, (add v word).size = v.size) (words : List (List Char)) (v : Array Float32) :
      (words.foldl add v).size = v.size := by
    induction words generalizing v with
    | nil => rfl
    | cons word words ih => rw [List.foldl_cons, ih, hadd]
  unfold embed
  dsimp only
  rw [length_normalized, Array.length_toList, hfold fun _ _ => Array.size_modify,
    Array.size_replicate]

/-! ## The records of a file -/

/-- The records about a file. -/
def Records.about (r : Records) (path : Path) : Table String Record :=
  r.items.filter fun _ record => record.payload.sourcePath.same path

namespace Index

namespace Draft

/-- The key of the record that a draft for a file gives. -/
def key (path : Path) (d : Draft) : String := recordKey d.subject path (d.name.getD "")

/-- What the record that a draft for a file gives says. -/
def payload (path : Path) (d : Draft) : Payload := ⟨d.meaning, d.subject, path, d.name, d.metadata⟩

end Draft

/-- The entries that drafts for a file give, up to the first that cannot be embedded. -/
def entriesOf (e : Embedder) (path : Path) : List Draft → List (String × Record)
  | [] => []
  | d :: rest =>
    match e.embed d.meaning with
    | .ok vector => (d.key path, ⟨vector, d.payload path⟩) :: entriesOf e path rest
    | .error _ => []

/-- The records that an outline of a file gives. -/
def generated (e : Embedder) (path : Path) (stem : String) (o : Outline) : Table String Record :=
  .ofList (entriesOf e path (drafts stem o))

theorem entriesOf_hashing (dimension : Nat) (path : Path) (ds : List Draft) :
    entriesOf (Embedder.hashing dimension) path ds =
      ds.map fun d => (d.key path, ⟨embed dimension d.meaning, d.payload path⟩) := by
  induction ds with
  | nil => rfl
  | cons d ds ih =>
    rw [List.map_cons, ← ih]
    rfl

/-- An entry that drafts give is that of one of them. -/
theorem exists_draft_of_mem {e : Embedder} {path : Path} {ds : List Draft} {x : String × Record}
    (h : x ∈ entriesOf e path ds) :
    ∃ d ∈ ds, x.1 = d.key path ∧ x.2.payload = d.payload path ∧
      e.embed d.meaning = .ok x.2.vector := by
  induction ds with
  | nil => cases h
  | cons d ds ih =>
    unfold entriesOf at h
    split at h
    · next vector hembed =>
      rcases List.mem_cons.1 h with rfl | h
      · exact ⟨d, .head _, rfl, rfl, hembed⟩
      · obtain ⟨d', hd', hx⟩ := ih h
        exact ⟨d', .tail _ hd', hx⟩
    · cases h

/-- The keys of the records that an outline gives are those of its drafts. -/
theorem get?_generated_eq_none_iff (dimension : Nat) (path : Path) (stem : String) (o : Outline)
    (key : String) : (generated (.hashing dimension) path stem o).get? key = none ↔
      ∀ d ∈ drafts stem o, d.key path ≠ key := by
  rw [generated, entriesOf_hashing, Table.get?_ofList_eq_none_iff, List.forall_mem_map]

/-! ## One record -/

/-- Why a draft is refused: its meaning is not embedded, or its vector has another number of
components than those that are stored. -/
inductive Refused (r : Records) (answer : Except String Vector) : IndexError → Prop
  | embedding {reason : String} : answer = .error reason → Refused r answer (.embedding reason)
  | dimension {vector : Vector} {expected : Nat} : answer = .ok vector →
      r.dimension? = some expected → vector.length ≠ expected →
      Refused r answer (.dimension expected vector.length)

/-- A vector of some length can be put among records. -/
def Fits (r : Records) (length : Nat) : Prop :=
  ∀ expected, r.dimension? = some expected → length = expected

/-- The index with entries put. -/
def withEntries (ix : Index) (es : List (String × Record)) : Index :=
  { ix with records := { ix.records with
    items := es.foldl (fun t e => t.insert e.1 e.2) ix.records.items } }

variable {ix : Index} {length : Nat}

/-- A draft is entered, or it is refused. -/
theorem put_cases (henabled : ix.enabled = true) (path : Path) (d : Draft) :
    (∃ vector, ix.embedder.embed d.meaning = .ok vector ∧ Fits ix.records vector.length ∧
      ix.put d.subject path d.name d.meaning d.metadata =
        .ok (ix.withEntries [(d.key path, ⟨vector, d.payload path⟩)])) ∨
    ∃ e, Refused ix.records (ix.embedder.embed d.meaning) e ∧
      ix.put d.subject path d.name d.meaning d.metadata = .error e := by
  obtain ⟨enabled, embedder, records, file⟩ := ix
  cases henabled
  unfold put Records.put
  dsimp only
  rw [Bool.not_true, if_neg Bool.false_ne_true]
  cases hembed : embedder.embed d.meaning with
  | error reason => exact .inr ⟨_, .embedding rfl, rfl⟩
  | ok vector =>
    cases hexpected : records.dimension? with
    | none =>
      have hfits : Fits records vector.length := by simp [Fits, hexpected]
      exact .inl ⟨vector, rfl, hfits, rfl⟩
    | some expected =>
      dsimp only
      by_cases hlength : vector.length = expected
      · have hfits : Fits records vector.length := by simp [Fits, hexpected, hlength]
        rw [if_pos hlength]
        exact .inl ⟨vector, rfl, hfits, rfl⟩
      · rw [if_neg hlength]
        exact .inr ⟨_, .dimension rfl hexpected hlength, rfl⟩

/-- A put changes nothing but the records. -/
theorem records_put {next : Index} {subject : Subject} {path : Path} {name : Option String}
    {meaning : String} {metadata : Table String String}
    (h : ix.put subject path name meaning metadata = .ok next) :
    { ix with records := next.records } = next := by
  rcases Bool.eq_false_or_eq_true ix.enabled with henabled | henabled
  · rcases put_cases henabled path ⟨subject, name, meaning, metadata⟩ with
      ⟨vector, -, -, hput⟩ | ⟨e, -, hput⟩
    · cases h.symm.trans hput
      rfl
    · cases h.symm.trans hput
  · rw [put, henabled, Bool.not_false, if_pos rfl] at h
    cases h
    rfl

/-- After a record is put, vectors of its length fit. -/
theorem fits_withEntry {key : String} {record : Record} (h : Fits ix.records record.vector.length) :
    Fits (ix.withEntries [(key, record)]).records record.vector.length := by
  obtain ⟨enabled, embedder, ⟨space, ⟨entries, ascending⟩⟩, file⟩ := ix
  intro expected hexpected
  change ((Table.put key record entries).map Prod.snd).head?.map _ = some expected at hexpected
  cases entries with
  | nil => exact Option.some.inj hexpected
  | cons first entries =>
    unfold Table.put at hexpected
    split at hexpected
    · exact Option.some.inj hexpected
    · split at hexpected
      · exact h expected hexpected
      · exact Option.some.inj hexpected

/-! ## Records of one length -/

/-- An index whose vectors all have the same number of components. -/
structure Uniform (ix : Index) (length : Nat) : Prop where
  embedded : ∀ text vector, ix.embedder.embed text = .ok vector → vector.length = length
  stored : ∀ e ∈ ix.records.items.entries, e.2.vector.length = length

theorem Uniform.dimension? (h : ix.Uniform length) :
    ∀ expected, ix.records.dimension? = some expected → expected = length := by
  intro expected hexpected
  obtain ⟨record, hrecord, rfl⟩ := Option.map_eq_some_iff.1 hexpected
  obtain ⟨e, he, rfl⟩ := List.mem_map.1 (List.mem_of_head? hrecord)
  exact h.stored e he

theorem Uniform.of_items (h : ix.Uniform length) {items : Table String Record}
    (hitems : ∀ e ∈ items.entries, e ∈ ix.records.items.entries ∨ e.2.vector.length = length) :
    Uniform { ix with records := { ix.records with items } } length := by
  refine ⟨h.embedded, fun e he => ?_⟩
  rcases hitems e he with he | he
  · exact h.stored e he
  · exact he

theorem put_of_uniform (h : ix.Uniform length) (henabled : ix.enabled = true) (path : Path)
    (d : Draft) : ix.put d.subject path d.name d.meaning d.metadata =
      match ix.embedder.embed d.meaning with
      | .ok vector => .ok (ix.withEntries [(d.key path, ⟨vector, d.payload path⟩)])
      | .error reason => .error (.embedding reason) := by
  rcases put_cases henabled path d with ⟨vector, hembed, -, hput⟩ | ⟨e, hrefused, hput⟩
  · rw [hput, hembed]
  · rw [hput]
    cases hrefused with
    | embedding hembed => rw [hembed]
    | dimension hembed hexpected hne =>
      exact absurd ((h.embedded _ _ hembed).trans (h.dimension? _ hexpected).symm) hne

theorem Uniform.withEntry (h : ix.Uniform length) (path : Path) {d : Draft} {vector : Vector}
    (hembed : ix.embedder.embed d.meaning = .ok vector) :
    Uniform (ix.withEntries [(d.key path, ⟨vector, d.payload path⟩)]) length := by
  refine h.of_items fun e he => ?_
  rcases Table.mem_put he with rfl | he
  · exact .inr (h.embedded _ _ hembed)
  · exact .inl he

/-- Drafts that are put give their entries. -/
theorem putAll_of_uniform (h : ix.Uniform length) (henabled : ix.enabled = true) (path : Path)
    (ds : List Draft) :
    (putAll path ix ds).2 = ix.withEntries (entriesOf ix.embedder path ds) ∧
      Uniform (putAll path ix ds).2 length := by
  induction ds generalizing ix with
  | nil => exact ⟨rfl, h⟩
  | cons d ds ih =>
    unfold putAll entriesOf
    rw [put_of_uniform h henabled]
    cases hembed : ix.embedder.embed d.meaning with
    | error reason => exact ⟨rfl, h⟩
    | ok vector =>
      obtain ⟨heq, huniform⟩ := ih (h.withEntry path hembed) henabled
      exact ⟨heq, huniform⟩

/-- Drafts that can all be embedded are all put. -/
theorem putAll_eq_ok (h : ix.Uniform length) (henabled : ix.enabled = true)
    (hembedder : ∀ text, ∃ vector, ix.embedder.embed text = .ok vector) (path : Path)
    (ds : List Draft) : (putAll path ix ds).1 = .ok () := by
  induction ds generalizing ix with
  | nil => rfl
  | cons d ds ih =>
    obtain ⟨vector, hembed⟩ := hembedder d.meaning
    unfold putAll
    rw [put_of_uniform h henabled, hembed]
    exact ih (h.withEntry path hembed) henabled hembedder

/-! ## What changes -/

theorem get?_about {r : Records} {path : Path} {key : String} {record : Record} :
    (r.about path).get? key = some record ↔
      r.items.get? key = some record ∧ record.payload.sourcePath.same path = true := by
  rw [Records.about, Table.get?_filter, Option.filter_eq_some_iff]

/-- The index without the records of some files. -/
def without (ix : Index) (gone : Path → Bool) : Index :=
  { ix with records := { ix.records with
    items := ix.records.items.filter fun _ record => !gone record.payload.sourcePath } }

theorem get?_without {gone : Path → Bool} {key : String} {record : Record} :
    (ix.without gone).records.items.get? key = some record ↔
      ix.records.items.get? key = some record ∧ gone record.payload.sourcePath = false := by
  rw [without, Table.get?_filter, Option.filter_eq_some_iff, Bool.not_eq_true']

theorem get?_removeFile {ix : Index} {path : Path} {key : String} {record : Record} :
    (ix.removeFile path).2.records.items.get? key = some record ↔
      ix.records.items.get? key = some record ∧ record.payload.sourcePath.same path = false :=
  @get?_without ix (fun source => source.same path) key record

/-- Records are about one file only. -/
theorem same_of_same {record : Record} {path : Path}
    (h : record.payload.sourcePath.same path = true) (other : Path) :
    record.payload.sourcePath.same other = path.same other :=
  Path.same_congr h other

theorem Uniform.without (h : ix.Uniform length) (gone : Path → Bool) :
    Uniform (ix.without gone) length :=
  h.of_items fun _ he => .inl (List.mem_filter.1 he).1

theorem Uniform.removeFile (h : ix.Uniform length) (path : Path) :
    Uniform (ix.removeFile path).2 length :=
  h.without fun source => source.same path

/-- The records of files that are taken away are gone, those of other files stay. -/
theorem about_without {gone : Path → Bool}
    (hgone : ∀ path other : Path, path.same other = true → gone path = gone other) (path : Path) :
    (ix.without gone).records.about path = if gone path then ∅ else ix.records.about path := by
  refine Table.ext_get? fun key => Option.ext fun record => ?_
  rw [get?_about, get?_without]
  split
  · next htrue =>
    refine iff_of_false (fun h => ?_) fun h => by cases h
    have hfalse := h.1.2
    rw [hgone _ _ h.2, htrue] at hfalse
    cases hfalse
  · next hfalse =>
    rw [get?_about]
    refine ⟨fun h => ⟨h.1.1, h.2⟩, fun h => ⟨⟨h.1, ?_⟩, h.2⟩⟩
    rw [hgone _ _ h.2]
    exact Bool.eq_false_iff.2 hfalse

/-- The records of a file that is removed are gone, those of other files stay. -/
theorem about_removeFile (ix : Index) (path other : Path) :
    (ix.removeFile path).2.records.about other =
      if path.same other then ∅ else ix.records.about other := by
  rw [Path.same_comm]
  exact about_without (fun _ _ h => Path.same_congr h path) other

/-- Entries that drafts for a file give do not meet records of other files. -/
def Apart (ix : Index) (path : Path) (es : List (String × Record)) : Prop :=
  ∀ e ∈ es, ∀ record, ix.records.items.get? e.1 = some record →
    record.payload.sourcePath.same path = true

theorem addOutline_of_uniform (h : ix.Uniform length) (henabled : ix.enabled = true) (path : Path)
    (stem : String) (o : Outline) :
    (ix.addOutline path stem o).2 =
        (ix.removeFile path).2.withEntries (entriesOf ix.embedder path (drafts stem o)) ∧
      Uniform (ix.addOutline path stem o).2 length := by
  have hput := putAll_of_uniform (h.removeFile path) henabled path (drafts stem o)
  unfold addOutline
  rw [henabled]
  exact hput

/-- A look-up after a file is indexed finds one of the new records, or else one of another file. -/
theorem get?_addOutline (h : ix.Uniform length) (henabled : ix.enabled = true) (path : Path)
    (stem : String) (o : Outline) (key : String) :
    (ix.addOutline path stem o).2.records.items.get? key =
      ((generated ix.embedder path stem o).get? key).or
        ((ix.removeFile path).2.records.items.get? key) := by
  rw [(addOutline_of_uniform h henabled path stem o).1]
  exact Table.get?_foldl_insert _ _ _

/-- A file that is indexed has a meaning. -/
theorem fileMeaning?_addOutline (h : ix.Uniform length) (henabled : ix.enabled = true)
    {dimension : Nat} (hembedder : ix.embedder = .hashing dimension) (path : Path) (stem : String)
    (o : Outline) : (ix.addOutline path stem o).2.fileMeaning? path ≠ none := by
  rw [Ne, fileMeaning?, Option.map_eq_none_iff, Records.get?, Option.map_eq_none_iff,
    get?_addOutline h henabled, Option.or_eq_none_iff, hembedder, get?_generated_eq_none_iff]
  exact fun hnone => hnone.1 _ (.head _) rfl

/-- Records are told about the same file by each of its spellings. -/
theorem about_congr {r : Records} {path other : Path} (h : path.same other = true) :
    r.about path = r.about other := by
  refine congrArg (Table.filter · r.items) (funext fun _ => funext fun record => ?_)
  rw [Path.same_comm, Path.same_congr h, Path.same_comm]

/-- Entries about a file take the place of its records. -/
theorem about_replaced (ix : Index) {path : Path} {es : List (String × Record)}
    (hes : ∀ x ∈ es, x.2.payload.sourcePath = path) :
    ((ix.removeFile path).2.withEntries es).records.about path = .ofList es := by
  refine Table.ext_get? fun key => Option.ext fun record => ?_
  rw [get?_about, withEntries, Table.get?_foldl_insert, Option.or_eq_some_iff, get?_removeFile]
  constructor
  · rintro ⟨hnew | ⟨-, -, hother⟩, hsame⟩
    · exact hnew
    · rw [hother] at hsame
      cases hsame
  · intro hnew
    refine ⟨.inl hnew, ?_⟩
    rw [hes _ (Table.mem_of_mem_ofList ((Table.get?_eq_some_iff _).1 hnew))]
    exact Path.same_refl path

/-- The records of a file that is indexed are those that its outline gives, and those of other files
stay. -/
theorem about_addOutline (h : ix.Uniform length) (henabled : ix.enabled = true) {path : Path}
    {stem : String} {o : Outline}
    (hapart : ix.Apart path (entriesOf ix.embedder path (drafts stem o))) (other : Path) :
    (ix.addOutline path stem o).2.records.about other =
      if path.same other then generated ix.embedder path stem o else ix.records.about other := by
  have hsource : ∀ x ∈ entriesOf ix.embedder path (drafts stem o),
      x.2.payload.sourcePath = path := by
    intro x hx
    obtain ⟨d, -, -, hpayload, -⟩ := exists_draft_of_mem hx
    rw [hpayload]
    rfl
  split
  · next hsame =>
    rw [← about_congr hsame, (addOutline_of_uniform h henabled path stem o).1]
    exact about_replaced ix hsource
  · next hsame =>
    refine Table.ext_get? fun key => Option.ext fun record => ?_
    rw [get?_about, get?_about, get?_addOutline h henabled, Option.or_eq_some_iff, get?_removeFile]
    constructor
    · rintro ⟨hnew | ⟨-, hold, -⟩, hother⟩
      · have hmem := Table.mem_of_mem_ofList ((Table.get?_eq_some_iff _).1 hnew)
        rw [hsource _ hmem] at hother
        exact absurd hother hsame
      · exact ⟨hold, hother⟩
    · rintro ⟨hold, hother⟩
      have hapart' : record.payload.sourcePath.same path = false := by
        rw [same_of_same hother, Path.same_comm]
        exact Bool.eq_false_iff.2 hsame
      refine ⟨.inr ⟨Table.get?_ofList_eq_none_iff.2 fun x hx hkey => ?_, hold, hapart'⟩, hother⟩
      have hmeets := hapart x hx record (hkey ▸ hold)
      rw [hapart'] at hmeets
      cases hmeets

/-! ## Records of files that are not to be kept -/

/-- The files of records with that of one more. -/
def noteSource (t : Table (List RawText) Path) (record : Record) : Table (List RawText) Path :=
  if t.contains record.payload.sourcePath.key then t
  else t.insert record.payload.sourcePath.key record.payload.sourcePath

/-- Files under their keys. -/
def Keyed (t : Table (List RawText) Path) : Prop :=
  ∀ key path, t.get? key = some path → path.key = key

theorem keyed_noteSource {t : Table (List RawText) Path} (ht : Keyed t) (record : Record) :
    Keyed (noteSource t record) ∧
      (∀ key path, t.get? key = some path → (noteSource t record).get? key = some path) ∧
      ∃ path, (noteSource t record).get? record.payload.sourcePath.key = some path := by
  unfold noteSource
  split
  · next hcontains => exact ⟨ht, fun _ _ h => h, Option.isSome_iff_exists.1 hcontains⟩
  · next hnew =>
    refine ⟨fun key path hget => ?_, fun key path hget => ?_, record.payload.sourcePath, ?_⟩
    · rw [Table.get?_insert] at hget
      split at hget
      · next heq =>
        cases hget
        exact heq.symm
      · exact ht key path hget
    · rw [Table.get?_insert, if_neg]
      · exact hget
      · rintro rfl
        rw [Table.contains, hget] at hnew
        exact hnew rfl
    · rw [Table.get?_insert, if_pos rfl]

theorem keyed_foldl_noteSource {t : Table (List RawText) Path} (ht : Keyed t)
    (records : List Record) : Keyed (records.foldl noteSource t) ∧
      (∀ key path, t.get? key = some path → (records.foldl noteSource t).get? key = some path) ∧
      ∀ record ∈ records,
        ∃ path, (records.foldl noteSource t).get? record.payload.sourcePath.key = some path := by
  induction records generalizing t with
  | nil => exact ⟨ht, fun _ _ h => h, nofun⟩
  | cons first records ih =>
    obtain ⟨ht', hkept, path, hpath⟩ := keyed_noteSource ht first
    obtain ⟨hkeyed, hkept', hall⟩ := ih ht'
    refine ⟨hkeyed, fun key path hget => hkept' key path (hkept key path hget), ?_⟩
    intro record hrecord
    rcases List.mem_cons.1 hrecord with rfl | hrecord
    · exact ⟨path, hkept' _ _ hpath⟩
    · exact hall record hrecord

/-- The files that records are about are all told. -/
theorem exists_source {r : Records} {record : Record} (h : record ∈ r.items.values) :
    ∃ path ∈ r.sources, path.same record.payload.sourcePath = true := by
  have hempty : Keyed ∅ := nofun
  obtain ⟨hkeyed, -, hall⟩ := keyed_foldl_noteSource hempty r.items.values
  obtain ⟨path, hpath⟩ := hall record h
  refine ⟨path, ?_, Path.same_iff_key.2 (hkeyed _ _ hpath)⟩
  exact List.mem_map_of_mem ((Table.get?_eq_some_iff _).1 hpath)

/-- The index stays in its file. -/
theorem file_put {ix index : Index} {subject : Subject} {path : Path} {name : Option String}
    {meaning : String} {metadata : Table String String}
    (h : ix.put subject path name meaning metadata = .ok index) : index.file = ix.file := by
  rw [← records_put h]

/-- A step of taking away the records of files that are not to be kept. -/
def pruneOne (keep : List Path) (s : Nat × Index) (path : Path) : Nat × Index :=
  if keep.any path.same then s
  else (s.1 + (s.2.removeFile path).1, (s.2.removeFile path).2)

theorem prune_eq (ix : Index) (keep : List Path) :
    ix.prune keep = ix.records.sources.foldl (pruneOne keep) (0, ix) := rfl

theorem foldl_pruneOne (keep paths : List Path) (s : Nat × Index) :
    ∃ items, (paths.foldl (pruneOne keep) s).2 =
        { s.2 with records := { s.2.records with items } } ∧
      ∀ key record, items.get? key = some record ↔
        s.2.records.items.get? key = some record ∧ ∀ path ∈ paths, keep.any path.same = false →
          record.payload.sourcePath.same path = false := by
  induction paths generalizing s with
  | nil => exact ⟨s.2.records.items, rfl, fun _ _ => by simp⟩
  | cons path paths ih =>
    obtain ⟨items, heq, hitems⟩ := ih (pruneOne keep s path)
    rw [List.foldl_cons]
    refine ⟨items, ?_, fun key record => ?_⟩
    · rw [heq]
      unfold pruneOne
      split <;> rfl
    · rw [hitems, List.forall_mem_cons]
      unfold pruneOne
      split
      · next hkeep => simp [hkeep]
      · next hkeep =>
        rw [get?_removeFile, and_assoc]
        have hkeep : keep.any path.same = false := Bool.eq_false_iff.2 hkeep
        simp [hkeep]

/-- Only records of files that are kept stay, and they all do. -/
theorem prune_spec (ix : Index) (keep : List Path) :
    ∃ items, (ix.prune keep).2 = { ix with records := { ix.records with items } } ∧
      ∀ key record, items.get? key = some record ↔
        ix.records.items.get? key = some record ∧
          keep.any record.payload.sourcePath.same = true := by
  obtain ⟨items, heq, hitems⟩ := foldl_pruneOne keep ix.records.sources (0, ix)
  refine ⟨items, by rw [prune_eq, heq], fun key record => ?_⟩
  rw [hitems]
  refine and_congr_right fun hget => ?_
  have hvalue : record ∈ ix.records.items.values :=
    List.mem_map_of_mem ((Table.get?_eq_some_iff _).1 hget)
  obtain ⟨source, hsource, hsame⟩ := exists_source hvalue
  have hany {path : Path} (hpath : record.payload.sourcePath.same path = true) :
      keep.any path.same = keep.any record.payload.sourcePath.same := by
    refine congrArg _ (funext fun kept => ?_)
    rw [same_of_same hpath]
  constructor
  · intro hall
    rw [Path.same_comm] at hsame
    cases hkept : keep.any record.payload.sourcePath.same with
    | true => rfl
    | false =>
      have hgone := hall source hsource ((hany hsame).trans hkept)
      rw [hsame] at hgone
      cases hgone
  · intro hkept path _ hnot
    refine Bool.eq_false_iff.2 fun hpath => ?_
    rw [hany hpath, hkept] at hnot
    cases hnot

/-- Taking away the records of files that are not to be kept is one condition on their paths. -/
theorem prune_eq_without (ix : Index) (keep : List Path) :
    (ix.prune keep).2 = ix.without fun path => !keep.any path.same := by
  obtain ⟨items, heq, hitems⟩ := prune_spec ix keep
  have hfilter : items = (ix.without fun path => !keep.any path.same).records.items := by
    refine Table.ext_get? fun key => Option.ext fun record => ?_
    rw [hitems, get?_without, Bool.not_eq_false']
  rw [heq, hfilter]
  rfl

/-- The files that are kept keep their records, and all other records are gone. -/
theorem about_prune (ix : Index) (keep : List Path) (path : Path) :
    (ix.prune keep).2.records.about path =
      if keep.any path.same then ix.records.about path else ∅ := by
  rw [prune_eq_without, about_without fun path other h => ?_]
  · cases keep.any path.same <;> rfl
  · exact congrArg (fun same => !keep.any same) (funext (Path.same_congr h))

end Index

end Meaning

end Recast
