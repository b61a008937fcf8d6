/-
  Proofs/Meaning/Order.lean --- the order of changes to the index.

  The index is changed by dropping the records of a file and by entering one after the other.  Changes
  that concern different files can be made in either order (`removeFile_removeFile`,
  `removeFile_enter`, `enter_enter`) as far as keys tell their records apart.  Whether the index has
  lost a file depends on the changes that concern it alone if no record stands under the key of one
  file and is about another one (`Owned`).
-/
import Recast.Proofs.Meaning.Index

set_option autoImplicit false

namespace Recast

namespace Table

variable {κ α : Type} [LE κ] [LT κ] [Std.IsLinearOrder κ] [Std.LawfulOrderLT κ] [DecidableLT κ]
  [DecidableEq κ]

/-- An entry that a condition keeps can be put before or after the condition is applied. -/
theorem filter_insert {keep : κ → α → Bool} {k : κ} {v : α} (h : keep k v = true) (t : Table κ α) :
    (t.insert k v).filter keep = (t.filter keep).insert k v := by
  refine ext_get? fun key => ?_
  rw [get?_filter, get?_insert, get?_insert, get?_filter]
  split
  · next heq =>
    rw [heq, Option.filter_some, if_pos h]
  · rfl

omit [LE κ] [Std.IsLinearOrder κ] [Std.LawfulOrderLT κ] [DecidableLT κ] [DecidableEq κ] in
/-- Conditions can be applied in either order. -/
theorem filter_filter_comm (keep keep' : κ → α → Bool) (t : Table κ α) :
    (t.filter keep).filter keep' = (t.filter keep').filter keep := by
  refine ext ?_
  unfold filter
  dsimp only
  rw [List.filter_filter, List.filter_filter]
  simp only [Bool.and_comm]

end Table

namespace Meaning.Index

variable {ix : Index} {length : Nat} {path other : Path} {d d' : Draft}

/-! ## Changes -/

/-- The index with a record entered, if that does not fail. -/
def enter (ix : Index) (path : Path) (d : Draft) : Index :=
  (ix.put d.subject path d.name d.meaning d.metadata).toOption.getD ix

/-- Why a record cannot be entered. -/
def refusal? (ix : Index) (path : Path) (d : Draft) : Option IndexError :=
  match ix.put d.subject path d.name d.meaning d.metadata with
  | .ok _ => none
  | .error e => some e

/-- The entry that is made for a record, if any. -/
def entryOf (ix : Index) (path : Path) (d : Draft) : List (String × Record) :=
  if ix.enabled then entriesOf ix.embedder path [d] else []

theorem entryOf_cases (ix : Index) (path : Path) (d : Draft) :
    ix.entryOf path d = [] ∨ ∃ vector, ix.embedder.embed d.meaning = .ok vector ∧
      ix.entryOf path d = [(d.key path, ⟨vector, d.payload path⟩)] := by
  unfold entryOf
  split
  · unfold entriesOf
    cases hembed : ix.embedder.embed d.meaning with
    | ok vector => exact .inr ⟨vector, rfl, rfl⟩
    | error reason => exact .inl rfl
  · exact .inl rfl

/-- What is entered depends on the meaning of the record alone. -/
theorem enter_of_uniform (h : ix.Uniform length) (path : Path) (d : Draft) :
    ix.enter path d = ix.withEntries (ix.entryOf path d) := by
  unfold enter entryOf
  cases henabled : ix.enabled with
  | true =>
    rw [put_of_uniform h henabled, if_pos rfl, entriesOf]
    cases ix.embedder.embed d.meaning <;> rfl
  | false =>
    unfold put
    rw [henabled]
    rfl

theorem refusal?_of_uniform (h : ix.Uniform length) (path : Path) (d : Draft) :
    ix.refusal? path d =
      if ix.enabled then
        match ix.embedder.embed d.meaning with
        | .ok _ => none
        | .error reason => some (.embedding reason)
      else none := by
  unfold refusal?
  cases henabled : ix.enabled with
  | true =>
    rw [put_of_uniform h henabled, if_pos rfl]
    cases ix.embedder.embed d.meaning <;> rfl
  | false =>
    unfold put
    rw [henabled]
    rfl

theorem Uniform.enter (h : ix.Uniform length) (path : Path) (d : Draft) :
    (ix.enter path d).Uniform length := by
  rw [enter_of_uniform h]
  rcases ix.entryOf_cases path d with hnone | ⟨vector, hembed, hone⟩
  · rw [hnone]
    exact h
  · rw [hone]
    exact h.withEntry path hembed

/-! ## Either order -/

theorem removeFile_removeFile (ix : Index) (path other : Path) :
    ((ix.removeFile path).2.removeFile other).2 = ((ix.removeFile other).2.removeFile path).2 := by
  unfold removeFile Records.eraseSource
  dsimp only
  rw [Table.filter_filter_comm]

theorem removeFile_enter (h : ix.Uniform length) (hne : path.same other = false) (d : Draft) :
    ((ix.removeFile other).2.enter path d) = ((ix.enter path d).removeFile other).2 := by
  rw [enter_of_uniform h, enter_of_uniform (h.removeFile other)]
  rcases ix.entryOf_cases path d with hnone | ⟨vector, -, hone⟩
  · rw [hnone, show (ix.removeFile other).2.entryOf path d = [] from hnone]
    rfl
  · rw [hone, show (ix.removeFile other).2.entryOf path d = _ from hone]
    unfold removeFile Records.eraseSource withEntries
    dsimp only [List.foldl_cons, List.foldl_nil]
    rw [Table.filter_insert]
    simp [Draft.payload, hne]

theorem enter_enter (h : ix.Uniform length) (hne : d.key path ≠ d'.key other) :
    (ix.enter path d).enter other d' = (ix.enter other d').enter path d := by
  rw [enter_of_uniform (h.enter path d), enter_of_uniform (h.enter other d'), enter_of_uniform h,
    enter_of_uniform h]
  rcases ix.entryOf_cases path d with hnone | ⟨vector, -, hone⟩
  · rw [hnone, show (ix.withEntries (ix.entryOf other d')).entryOf path d = [] from hnone]
    rfl
  · rcases ix.entryOf_cases other d' with hnone' | ⟨vector', -, hone'⟩
    · rw [hnone', show (ix.withEntries (ix.entryOf path d)).entryOf other d' = [] from hnone']
      rfl
    · rw [hone, show (ix.withEntries (ix.entryOf other d')).entryOf path d = _ from hone, hone',
        show (ix.withEntries [(d.key path, ⟨vector, d.payload path⟩)]).entryOf other d' = _ from hone']
      unfold withEntries
      dsimp only [List.foldl_cons, List.foldl_nil]
      rw [Table.insert_comm hne]

/-! ## Files that the index has lost -/

/-- An index in which no record stands under the key of one file and is about another one. -/
def Owned (paths : List Path) (ix : Index) : Prop :=
  ∀ path ∈ paths, ∀ other ∈ paths, path ≠ other → ∀ record,
    ix.records.items.get? (recordKey .file path "") = some record →
      record.payload.sourcePath.same other = false

variable {paths : List Path}

theorem get?_enter (h : ix.Uniform length) (path : Path) (d : Draft) {key : String} {record : Record}
    (hget : (ix.enter path d).records.items.get? key = some record) :
    key = d.key path ∧ record.payload = d.payload path ∨
      ix.records.items.get? key = some record := by
  rw [enter_of_uniform h] at hget
  rcases ix.entryOf_cases path d with hnone | ⟨vector, -, hone⟩
  · rw [hnone] at hget
    exact .inr hget
  · rw [hone] at hget
    change (ix.records.items.insert _ _).get? key = _ at hget
    rw [Table.get?_insert] at hget
    split at hget
    · next heq =>
      cases hget
      exact .inl ⟨heq, rfl⟩
    · exact .inr hget

theorem get?_enter_of_ne (h : ix.Uniform length) {key : String} (hne : key ≠ d.key path) :
    (ix.enter path d).records.items.get? key = ix.records.items.get? key := by
  rw [enter_of_uniform h]
  rcases ix.entryOf_cases path d with hnone | ⟨vector, -, hone⟩
  · rw [hnone]
    rfl
  · rw [hone]
    change (ix.records.items.insert _ _).get? key = _
    rw [Table.get?_insert, if_neg hne]

theorem Owned.removeFile (h : ix.Owned paths) (path : Path) : Owned paths (ix.removeFile path).2 :=
  fun p hp q hq hne record hget => h p hp q hq hne record (get?_removeFile.1 hget).1

theorem Owned.enter (h : ix.Owned paths) (huniform : ix.Uniform length)
    (hsame : ∀ other ∈ paths, path.same other = true → path = other)
    (hkey : ∀ other ∈ paths, d.key path = recordKey .file other "" → path = other) :
    Owned paths (ix.enter path d) := by
  intro p hp q hq hne record hget
  rcases get?_enter huniform path d hget with ⟨heq, hpayload⟩ | hget
  · rw [hpayload]
    change path.same q = false
    refine Bool.eq_false_iff.2 fun hpath => hne ?_
    rw [← hkey p hp heq.symm, hsame q hq hpath]
  · exact h p hp q hq hne record hget

/-- Dropping the records of one file loses no other one. -/
theorem fileMeaning?_removeFile (h : ix.Owned paths) (hpath : path ∈ paths) (hother : other ∈ paths)
    (hne : path ≠ other) :
    (ix.removeFile other).2.fileMeaning? path = ix.fileMeaning? path := by
  unfold fileMeaning? Records.get?
  refine congrArg (Option.map _ ∘ Option.map _) (Option.ext fun record => ?_)
  rw [get?_removeFile]
  exact and_iff_left_of_imp (h path hpath other hother hne record)

/-- Records of one file give no meaning to another one. -/
theorem fileMeaning?_enter (h : ix.Uniform length) (hne : recordKey .file path "" ≠ d.key other) :
    (ix.enter other d).fileMeaning? path = ix.fileMeaning? path := by
  unfold fileMeaning? Records.get?
  rw [get?_enter_of_ne h hne]

end Meaning.Index

end Recast
