/-
  Proofs/Meaning/Replacing.lean --- what is left of a file's records when indexing it fails.

  Indexing takes the records of the file away and then puts those of its outline one after the
  other.  Nothing is put back when one of them is refused: the records before it stay, and the old
  ones are gone (`failed_replacing`).  The embedder may answer every call in another way, so the
  calls are numbered here (`addOutlineBy`); an embedder that answers by the text alone is the case
  in which all calls answer alike (`addOutline_eq_by`).
-/
import Recast.Proofs.Meaning.Index

set_option autoImplicit false

namespace Recast.Meaning.Index

/-! ## Embedders that answer call by call -/

/-- What an embedder answers to each of its calls. -/
abbrev Calls := Nat → String → Except String Vector

/-- The index with answers of its embedder. -/
def answering (ix : Index) (embed : String → Except String Vector) : Index :=
  { ix with embedder := { ix.embedder with embed } }

/-- The index with records of a file put, up to the first that fails, by the calls from one on. -/
def putAllBy (calls : Calls) (path : Path) :
    Nat → Index → List Draft → Except IndexError Unit × Index
  | _, ix, [] => (.ok (), ix)
  | n, ix, d :: rest =>
    match (ix.answering (calls n)).put d.subject path d.name d.meaning d.metadata with
    | .ok next => putAllBy calls path (n + 1) { ix with records := next.records } rest
    | .error e => (.error e, ix)

/-- The index with the records of a file replaced by those that its outline gives, by calls. -/
def addOutlineBy (calls : Calls) (ix : Index) (path : Path) (stem : String) (o : Outline) :
    Except IndexError Summary × Index :=
  if !ix.enabled then (.ok {}, ix)
  else
    let (result, ix) := putAllBy calls path 0 (ix.removeFile path).2 (drafts stem o)
    (result.map fun () =>
      ⟨1, o.functions.length, o.classes.length, (Meaning.relations stem o).length⟩, ix)

/-- The entries of drafts that are embedded by the calls from one on. -/
inductive Embedded (calls : Calls) (path : Path) :
    Nat → List Draft → List (String × Record) → Prop
  | nil (n : Nat) : Embedded calls path n [] []
  | cons {n : Nat} {d : Draft} {ds : List Draft} {es : List (String × Record)} {vector : Vector} :
    calls n d.meaning = .ok vector → Embedded calls path (n + 1) ds es →
      Embedded calls path n (d :: ds) ((d.key path, ⟨vector, d.payload path⟩) :: es)

variable {calls : Calls} {ix next : Index} {path : Path} {stem : String} {o : Outline}
  {ds : List Draft} {es : List (String × Record)} {n : Nat} {e : IndexError}

/-! ## Records one after the other -/

/-- The first draft is entered and the others follow, or it is refused and none follows. -/
theorem putAllBy_cons (henabled : ix.enabled = true) (calls : Calls) (path : Path) (n : Nat)
    (d : Draft) (ds : List Draft) :
    (∃ vector, calls n d.meaning = .ok vector ∧ Fits ix.records vector.length ∧
      putAllBy calls path n ix (d :: ds) = putAllBy calls path (n + 1)
        (ix.withEntries [(d.key path, ⟨vector, d.payload path⟩)]) ds) ∨
    ∃ e, Refused ix.records (calls n d.meaning) e ∧
      putAllBy calls path n ix (d :: ds) = (.error e, ix) := by
  have henabled' : (ix.answering (calls n)).enabled = true := henabled
  rw [putAllBy]
  rcases put_cases henabled' path d with ⟨vector, hembed, hfits, hput⟩ | ⟨e, hrefused, hput⟩
  · rw [hput]
    exact .inl ⟨vector, hembed, hfits, rfl⟩
  · rw [hput]
    exact .inr ⟨e, hrefused, rfl⟩

/-- Drafts are all entered, or those before the first one that is refused are. -/
theorem putAllBy_cases (henabled : ix.enabled = true) (calls : Calls) (path : Path) (n : Nat)
    (ds : List Draft) :
    (∃ es, Embedded calls path n ds es ∧
      putAllBy calls path n ix ds = (.ok (), ix.withEntries es)) ∨
    ∃ done d rest es e, ds = done ++ d :: rest ∧ Embedded calls path n done es ∧
      Refused (ix.withEntries es).records (calls (n + done.length) d.meaning) e ∧
      putAllBy calls path n ix ds = (.error e, ix.withEntries es) := by
  induction ds generalizing n ix with
  | nil => exact .inl ⟨[], .nil n, rfl⟩
  | cons d ds ih =>
    rcases putAllBy_cons henabled calls path n d ds with
      ⟨vector, hembed, -, hput⟩ | ⟨e, hrefused, hput⟩
    · rw [hput]
      have henabled' : (ix.withEntries [(d.key path, ⟨vector, d.payload path⟩)]).enabled = true :=
        henabled
      rcases ih henabled' (n + 1) with
        ⟨es, hembedded, hall⟩ | ⟨done, d', rest, es, e, rfl, hembedded, hrefused, hsome⟩
      · exact .inl ⟨_, .cons hembed hembedded, hall⟩
      · refine .inr ⟨d :: done, d', rest, _, e, rfl, .cons hembed hembedded, ?_, hsome⟩
        rw [List.length_cons, Nat.add_comm done.length, ← Nat.add_assoc]
        exact hrefused
    · rw [hput]
      exact .inr ⟨[], d, ds, [], e, rfl, .nil n, hrefused, rfl⟩

variable {length expected actual : Nat}

/-- Where vectors of a length fit, none of that length is refused for it. -/
theorem putAllBy_ne_dimension (henabled : ix.enabled = true)
    (hlength : ∀ n text vector, calls n text = .ok vector → vector.length = length)
    (hfits : Fits ix.records length) (path : Path) (n : Nat) (ds : List Draft) :
    (putAllBy calls path n ix ds).1 ≠ .error (.dimension expected actual) := by
  induction ds generalizing n ix with
  | nil => exact nofun
  | cons d ds ih =>
    rcases putAllBy_cons henabled calls path n d ds with
      ⟨vector, hembed, hvector, hput⟩ | ⟨e, hrefused, hput⟩
    · rw [hput]
      obtain rfl := hlength n _ _ hembed
      have henabled' : (ix.withEntries [(d.key path, ⟨vector, d.payload path⟩)]).enabled = true :=
        henabled
      exact ih henabled' (fits_withEntry hvector) (n + 1)
    · rw [hput]
      intro herror
      cases herror
      cases hrefused with
      | dimension hembed hexpected hne =>
        exact hne ((hlength n _ _ hembed).trans (hfits _ hexpected))

/-- Among vectors of one length only the first can be refused for it. -/
theorem putAllBy_dimension (henabled : ix.enabled = true)
    (hlength : ∀ n text vector, calls n text = .ok vector → vector.length = length)
    (h : putAllBy calls path n ix ds = (.error (.dimension expected actual), next)) :
    next = ix := by
  cases ds with
  | nil => cases h
  | cons d ds =>
    rcases putAllBy_cons henabled calls path n d ds with
      ⟨vector, hembed, hvector, hput⟩ | ⟨e, hrefused, hput⟩
    · -- Once the first vector is stored, those of its length fit.
      rw [hput] at h
      obtain rfl := hlength n _ _ hembed
      have henabled' : (ix.withEntries [(d.key path, ⟨vector, d.payload path⟩)]).enabled = true :=
        henabled
      exact absurd (congrArg Prod.fst h)
        (putAllBy_ne_dimension henabled' hlength (fits_withEntry hvector) path (n + 1) ds)
    · rw [hput] at h
      cases h
      rfl

/-- An embedder that answers by the text alone answers all calls alike. -/
theorem putAll_eq_by (ix : Index) (path : Path) (n : Nat) (ds : List Draft) :
    putAll path ix ds = putAllBy (fun _ => ix.embedder.embed) path n ix ds := by
  induction ds generalizing ix n with
  | nil => rfl
  | cons d ds ih =>
    unfold putAll putAllBy
    -- The index asks the embedder that it holds anyway.
    change _ = match ix.put d.subject path d.name d.meaning d.metadata with
      | .ok next => putAllBy _ path (n + 1) { ix with records := next.records } ds
      | .error e => (.error e, ix)
    cases hput : ix.put d.subject path d.name d.meaning d.metadata with
    | error e => rfl
    | ok next =>
      dsimp only
      rw [records_put hput, ih next (n + 1), ← records_put hput]

theorem addOutline_eq_by (ix : Index) (path : Path) (stem : String) (o : Outline) :
    ix.addOutline path stem o = ix.addOutlineBy (fun _ => ix.embedder.embed) path stem o := by
  unfold addOutline addOutlineBy
  rw [putAll_eq_by _ path 0]
  rfl

/-! ## The records of the file -/

theorem Embedded.sourcePath (h : Embedded calls path n ds es) :
    ∀ x ∈ es, x.2.payload.sourcePath = path := by
  induction h with
  | nil n => exact nofun
  | cons _ _ ih => exact List.forall_mem_cons.2 ⟨rfl, ih⟩

/-- Replacing the records of a file changes nothing just if they were the new ones before. -/
theorem replaced_eq_iff (ix : Index) (hes : ∀ x ∈ es, x.2.payload.sourcePath = path) :
    ((ix.removeFile path).2.withEntries es).records = ix.records ↔
      ix.records.about path = .ofList es := by
  constructor
  · intro h
    rw [← about_replaced ix hes, h]
  · intro h
    refine congrArg (Records.mk ix.records.space)
      (Table.ext_get? fun key => Option.ext fun record => ?_)
    rw [Table.get?_foldl_insert, ← h, Option.or_eq_some_iff, get?_about, get?_removeFile]
    constructor
    · rintro (hnew | ⟨-, hold⟩)
      · exact hnew.1
      · exact hold.1
    · intro hold
      rcases Bool.eq_false_or_eq_true (record.payload.sourcePath.same path) with hsame | hother
      · exact .inl ⟨hold, hsame⟩
      · refine .inr ⟨Option.eq_none_iff_forall_ne_some.2 fun other habout => ?_, hold, hother⟩
        obtain ⟨hother', hsame⟩ := get?_about.1 habout
        cases hold.symm.trans hother'
        rw [hother] at hsame
        cases hsame

/-! ## Indexing a file -/

/-- The drafts of a file are put where its records were taken away. -/
theorem addOutlineBy_of_enabled (henabled : ix.enabled = true) (calls : Calls) (path : Path)
    (stem : String) (o : Outline) :
    ix.addOutlineBy calls path stem o =
      ((putAllBy calls path 0 (ix.removeFile path).2 (drafts stem o)).1.map fun () =>
        ⟨1, o.functions.length, o.classes.length, (relations stem o).length⟩,
        (putAllBy calls path 0 (ix.removeFile path).2 (drafts stem o)).2) := by
  unfold addOutlineBy
  rw [henabled]
  rfl

/-- Indexing a file that ends without an error enters all that its outline gives. -/
theorem addOutlineBy_ok {summary : Summary} (henabled : ix.enabled = true)
    (h : ix.addOutlineBy calls path stem o = (.ok summary, next)) :
    summary = ⟨1, o.functions.length, o.classes.length, (relations stem o).length⟩ ∧
      ∃ es, Embedded calls path 0 (drafts stem o) es ∧
        next = (ix.removeFile path).2.withEntries es := by
  have henabled' : (ix.removeFile path).2.enabled = true := henabled
  rw [addOutlineBy_of_enabled henabled] at h
  rcases putAllBy_cases henabled' calls path 0 (drafts stem o) with
    ⟨es, hembedded, hput⟩ | ⟨done, d, rest, es, e, -, -, -, hput⟩
  · rw [hput] at h
    cases h
    exact ⟨rfl, es, hembedded, rfl⟩
  · rw [hput] at h
    cases h

/-- An error is that of a draft that could not be put. -/
theorem putAllBy_of_error (h : ix.addOutlineBy calls path stem o = (.error e, next)) :
    (ix.removeFile path).2.enabled = true ∧
      putAllBy calls path 0 (ix.removeFile path).2 (drafts stem o) = (.error e, next) := by
  rcases Bool.eq_false_or_eq_true ix.enabled with henabled | henabled
  · refine ⟨henabled, ?_⟩
    rw [addOutlineBy_of_enabled henabled] at h
    obtain ⟨herror, hnext⟩ := Prod.mk.inj h
    cases hput : (putAllBy calls path 0 (ix.removeFile path).2 (drafts stem o)).1 with
    | error e' =>
      rw [hput] at herror
      cases herror
      exact Prod.ext hput hnext
    | ok _ =>
      rw [hput] at herror
      cases herror
  · rw [addOutlineBy, henabled] at h
    cases h

/-- Indexing a file that ends with an error leaves the records before the one that was refused. -/
theorem addOutlineBy_error (h : ix.addOutlineBy calls path stem o = (.error e, next)) :
    ∃ done d rest es, drafts stem o = done ++ d :: rest ∧ Embedded calls path 0 done es ∧
      next = (ix.removeFile path).2.withEntries es ∧
      Refused next.records (calls done.length d.meaning) e := by
  obtain ⟨henabled, h⟩ := putAllBy_of_error h
  rcases putAllBy_cases henabled calls path 0 (drafts stem o) with
    ⟨es, -, hput⟩ | ⟨done, d, rest, es, e, hdrafts, hembedded, hrefused, hput⟩
  · cases h.symm.trans hput
  · cases h.symm.trans hput
    rw [Nat.zero_add] at hrefused
    exact ⟨done, d, rest, es, hdrafts, hembedded, rfl, hrefused⟩

/-- A first vector of another length than the stored ones leaves the file without records. -/
theorem addOutlineBy_of_length_ne {vector : Vector} (henabled : ix.enabled = true)
    (hembed : calls 0 (ofFile stem o) = .ok vector)
    (hexpected : (ix.removeFile path).2.records.dimension? = some expected)
    (hne : vector.length ≠ expected) :
    ix.addOutlineBy calls path stem o =
      (.error (.dimension expected vector.length), (ix.removeFile path).2) := by
  have hfirst : ∃ d rest, drafts stem o = d :: rest ∧ d.meaning = ofFile stem o := ⟨_, _, rfl, rfl⟩
  obtain ⟨d, rest, hdrafts, hmeaning⟩ := hfirst
  have henabled' : (ix.removeFile path).2.enabled = true := henabled
  rw [addOutlineBy_of_enabled henabled, hdrafts]
  rw [← hmeaning] at hembed
  rcases putAllBy_cons henabled' calls path 0 d rest with
    ⟨vector', hembed', hfits, -⟩ | ⟨e, hrefused, hput⟩
  · cases hembed.symm.trans hembed'
    exact absurd (hfits expected hexpected) hne
  · rw [hput]
    cases hrefused with
    | embedding hembed' => cases hembed.symm.trans hembed'
    | dimension hembed' hexpected' _ =>
      cases hembed.symm.trans hembed'
      cases hexpected.symm.trans hexpected'
      rfl

/-- Indexing a file that fails at some record leaves the index without the records of the file, but
with those of the drafts before; what was stored before is left only if it was just these.  With
vectors of one length, stored vectors of another one are found at the first record. -/
theorem failed_replacing (ix : Index) (path : Path) (stem : String) (o : Outline) :
    ix.addOutline path stem o = ix.addOutlineBy (fun _ => ix.embedder.embed) path stem o ∧
    ∀ (calls : Calls) (e : IndexError) (next : Index),
      ix.addOutlineBy calls path stem o = (.error e, next) →
      (∃ done d rest es, drafts stem o = done ++ d :: rest ∧ Embedded calls path 0 done es ∧
        next = (ix.removeFile path).2.withEntries es ∧
        Refused next.records (calls done.length d.meaning) e ∧
        (next.records = ix.records ↔ ix.records.about path = .ofList es)) ∧
      ∀ length expected actual,
        (∀ n text vector, calls n text = .ok vector → vector.length = length) →
        e = .dimension expected actual → next = (ix.removeFile path).2 := by
  refine ⟨addOutline_eq_by ix path stem o, fun calls e next h => ⟨?_, ?_⟩⟩
  · obtain ⟨done, d, rest, es, hdrafts, hembedded, rfl, hrefused⟩ := addOutlineBy_error h
    exact ⟨done, d, rest, es, hdrafts, hembedded, rfl, hrefused,
      replaced_eq_iff ix hembedded.sourcePath⟩
  · rintro length expected actual hlength rfl
    obtain ⟨henabled, hput⟩ := putAllBy_of_error h
    exact putAllBy_dimension henabled hlength hput

/-- An index of vectors with one component, about two files. -/
def ofTwoFiles : Index where
  enabled := true
  embedder := .hashing 64
  records :=
    { space := embeddingName 64
      items := .ofList [("a", ⟨[1.0], ⟨"A module.", .file, ⟨"/a.py"⟩, none, ∅⟩⟩),
        ("b", ⟨[1.0], ⟨"Another module.", .file, ⟨"/b.py"⟩, none, ∅⟩⟩)] }

/-- The second record is not embedded, or the first one is of another length. -/
theorem failed_replacing_ofTwoFiles :
    let o : Outline := { functions := [{ name := "f", qualifiedName := "f" }] }
    let second : Calls := fun n _ => if n = 1 then .error "unreachable" else .ok [1.0]
    let longer : Calls := fun _ _ => .ok [1.0, 1.0]
    let next := (ofTwoFiles.addOutlineBy second ⟨"/a.py"⟩ "a" o).2
    ((ofTwoFiles.addOutlineBy second ⟨"/a.py"⟩ "a" o).1 = .error (.embedding "unreachable") ∧
      ∃ done d rest es, drafts "a" o = done ++ d :: rest ∧ Embedded second ⟨"/a.py"⟩ 0 done es ∧
        next = (ofTwoFiles.removeFile ⟨"/a.py"⟩).2.withEntries es ∧
        Refused next.records (second done.length d.meaning) (.embedding "unreachable") ∧
        (next.records = ofTwoFiles.records ↔
          ofTwoFiles.records.about ⟨"/a.py"⟩ = .ofList es)) ∧
    (ofTwoFiles.addOutlineBy longer ⟨"/a.py"⟩ "a" o).1 = .error (.dimension 1 2) ∧
      (ofTwoFiles.addOutlineBy longer ⟨"/a.py"⟩ "a" o).2 =
        (ofTwoFiles.removeFile ⟨"/a.py"⟩).2 := by
  intro o second longer next
  have hsecond : (ofTwoFiles.addOutlineBy second ⟨"/a.py"⟩ "a" o).1 =
      .error (.embedding "unreachable") := rfl
  have hlonger : (ofTwoFiles.addOutlineBy longer ⟨"/a.py"⟩ "a" o).1 = .error (.dimension 1 2) := rfl
  have hlength : ∀ n text vector, longer n text = .ok vector → vector.length = 2 := by
    rintro n text vector ⟨⟩
    rfl
  obtain ⟨-, hfailed⟩ := failed_replacing ofTwoFiles ⟨"/a.py"⟩ "a" o
  exact ⟨⟨hsecond, (hfailed second _ next (Prod.ext hsecond rfl)).1⟩, hlonger,
    (hfailed longer _ _ (Prod.ext hlonger rfl)).2 2 1 2 hlength rfl⟩

/-- Vectors of another length are found after the old records of the file are gone, and these are
not put back. -/
theorem addOutline_not_restored :
    (ofTwoFiles.addOutline ⟨"/a.py"⟩ "a" {}).1 = .error (.dimension 1 64) ∧
      (ofTwoFiles.addOutline ⟨"/a.py"⟩ "a" {}).2.records ≠ ofTwoFiles.records := by
  have hlength : (embed 64 (ofFile "a" {})).length = 64 := length_embed 64 _
  have hlost : (ofTwoFiles.removeFile ⟨"/a.py"⟩).2.records ≠ ofTwoFiles.records := by
    intro h
    have hsize : 1 = 2 := congrArg Records.size h
    cases hsize
  have hne : (embed 64 (ofFile "a" {})).length ≠ 1 := by
    rw [hlength]
    decide
  have hfailed : ofTwoFiles.addOutlineBy (fun _ => ofTwoFiles.embedder.embed) ⟨"/a.py"⟩ "a" {} =
      (.error (.dimension 1 (embed 64 (ofFile "a" {})).length),
        (ofTwoFiles.removeFile ⟨"/a.py"⟩).2) :=
    addOutlineBy_of_length_ne rfl rfl rfl hne
  rw [addOutline_eq_by, hfailed, hlength]
  exact ⟨rfl, hlost⟩

end Recast.Meaning.Index
