/-
  Proofs/Cache/EntryText.lean --- an entry of the cache is what its bytes say.

  Numbers are kept in machine words, so a value `Fits` when its numbers do; a value that was read
  fits, and one that fits is read back as it was written.
-/
import Recast.Cache.EntryText
import Recast.Proofs.Json.ReadBack
import Recast.Proofs.Table
import Recast.Proofs.Text.Utf8

set_option autoImplicit false

namespace Recast

open Json.Reader

variable {real : Float → String}

/-! ## Parts of values -/

namespace Json

theorem listOf?_ofList {α : Type} {toJson : α → Json} {read : Json → Option α} {xs : List α}
    (h : ∀ x ∈ xs, read (toJson x) = some x) : listOf? read (.ofList toJson xs) = some xs := by
  rw [ofList, listOf?, List.mapM_map]
  induction xs with
  | nil => rfl
  | cons x xs ih =>
    rw [List.mapM_cons, Function.comp_apply, h x (.head _), ih fun y hy => h y (.tail _ hy)]
    rfl

theorem optional?_ofOption {α : Type} {toJson : α → Json} {read : Json → Option α} {a : Option α}
    (hnull : ∀ x, toJson x ≠ .null) (h : ∀ x, a = some x → read (toJson x) = some x) :
    optional? read (some (.ofOption toJson a)) = some a := by
  cases a with
  | none => rfl
  | some x =>
    have hread := h x rfl
    have hne := hnull x
    simp only [ofOption]
    cases hj : toJson x with
    | null => exact absurd hj hne
    | _ => rw [optional?, ← hj, hread] <;> simp

theorem word?_ofNat {n : Nat} (h : n < 2 ^ 64) : word? (.ofNat n) = some n := by
  have hnat : (Json.ofNat n).nat? = some n := rfl
  rw [word?, below?, hnat, Option.filter_some, if_pos (decide_eq_true h)]

theorem exists_of_mem_mapM {α β : Type} {f : α → Option β} {xs : List α} {ys : List β}
    (h : xs.mapM f = some ys) {y : β} (hy : y ∈ ys) : ∃ x ∈ xs, f x = some y := by
  induction xs generalizing ys with
  | nil =>
    cases h
    cases hy
  | cons x xs ih =>
    simp only [List.mapM_cons, Option.bind_eq_bind, Option.bind_eq_some_iff, Option.pure_def,
      Option.some.injEq] at h
    obtain ⟨a, ha, as, has, rfl⟩ := h
    rcases List.mem_cons.1 hy with rfl | hy
    · exact ⟨x, .head _, ha⟩
    · obtain ⟨x', hx', hread⟩ := ih has hy
      exact ⟨x', .tail _ hx', hread⟩

/-- What holds of whatever can be read holds of the values of a list that was read. -/
theorem forall_of_listOf? {α : Type} {read : Json → Option α} {p : α → Prop}
    (h : ∀ j a, read j = some a → p a) {j : Json} {as : List α} (hread : listOf? read j = some as) :
    ∀ a ∈ as, p a := by
  intro a ha
  unfold listOf? at hread
  split at hread
  · obtain ⟨x, -, hx⟩ := exists_of_mem_mapM hread ha
    exact h x a hx
  · cases hread

/-- What holds of whatever can be read holds of a value that was there to be read. -/
theorem of_optional? {α : Type} {read : Json → Option α} {p : α → Prop}
    (h : ∀ j a, read j = some a → p a) {j : Option Json} {a : α}
    (hread : optional? read j = some (some a)) : p a := by
  unfold optional? at hread
  split at hread
  · cases hread
  · cases hread
  · next v _ =>
    obtain ⟨b, hb, hba⟩ := Option.map_eq_some_iff.1 hread
    cases hba
    exact h v a hb

theorem strings_read (xs : List String) : listOf? string? (.ofList .string xs) = some xs :=
  listOf?_ofList fun _ _ => rfl

theorem optional_read (a : Option String) : optional? string? (some (.ofOption .string a)) = some a :=
  optional?_ofOption (fun _ h => by cases h) fun _ _ => rfl

end Json

theorem lt_of_below? {bound n : Nat} {j : Json} (h : Json.below? bound j = some n) : n < bound := by
  rw [Json.below?, Option.filter_eq_some_iff] at h
  exact of_decide_eq_true h.2

/-! ## Outlines -/

/-- A class whose line fits a word. -/
def ClassDecl.Fits (c : ClassDecl) : Prop := c.line < 2 ^ 64

namespace ClassDecl

theorem ofJson?_toJson {c : ClassDecl} (h : c.Fits) : ofJson? c.toJson = some c := by
  have hline : Json.word? (.ofNat c.line) = some c.line := Json.word?_ofNat h
  simp [ofJson?, toJson, Json.record?, Json.Field.ofMembers?, Json.Field.occurrences,
    Json.strings_read, Json.optional_read, hline, Json.string?]

theorem reads_toJson (depth : Nat) {c : ClassDecl} (h : c.Fits) :
    Reads real (depth + 3) c.toJson (some c.toJson) := by
  refine reads_members _ ?_
  simp only [List.mem_cons, List.not_mem_nil, or_false, forall_eq_or_imp, forall_eq]
  exact ⟨reads_string _ _, reads_ofList fun _ _ => reads_string _ _,
    reads_ofList fun _ _ => reads_string _ _, reads_ofOption _ fun _ _ => reads_string _ _,
    reads_nat _ h⟩

theorem fits_of_ofJson? {j : Json} {c : ClassDecl} (h : ofJson? j = some c) : c.Fits := by
  unfold ofJson? at h
  simp only [Option.bind_eq_bind, Option.bind_eq_some_iff, Option.pure_def] at h
  obtain ⟨fields, -, h⟩ := h
  split at h
  · simp only [Option.bind_eq_some_iff, Option.some.injEq] at h
    obtain ⟨-, -, -, -, -, -, -, -, line, hline, rfl⟩ := h
    exact lt_of_below? hline
  · cases h

end ClassDecl

/-- A function whose lines fit words. -/
def FunctionDecl.Fits (f : FunctionDecl) : Prop := f.startLine < 2 ^ 64 ∧ f.endLine < 2 ^ 64

namespace FunctionDecl

theorem ofJson?_toJson {f : FunctionDecl} (h : f.Fits) : ofJson? f.toJson = some f := by
  have hfirst : Json.word? (.ofNat f.startLine) = some f.startLine := Json.word?_ofNat h.1
  have hlast : Json.word? (.ofNat f.endLine) = some f.endLine := Json.word?_ofNat h.2
  simp [ofJson?, toJson, Json.record?, Json.Field.ofMembers?, Json.Field.occurrences,
    Json.strings_read, Json.optional_read, hfirst, hlast, Json.string?]

theorem reads_toJson (depth : Nat) {f : FunctionDecl} (h : f.Fits) :
    Reads real (depth + 3) f.toJson (some f.toJson) := by
  refine reads_members _ ?_
  simp only [List.mem_cons, List.not_mem_nil, or_false, forall_eq_or_imp, forall_eq]
  exact ⟨reads_string _ _, reads_string _ _, reads_ofOption _ fun _ _ => reads_string _ _,
    reads_ofList fun _ _ => reads_string _ _, reads_ofOption _ fun _ _ => reads_string _ _,
    reads_nat _ h.1, reads_nat _ h.2⟩

theorem fits_of_ofJson? {j : Json} {f : FunctionDecl} (h : ofJson? j = some f) : f.Fits := by
  unfold ofJson? at h
  simp only [Option.bind_eq_bind, Option.bind_eq_some_iff, Option.pure_def] at h
  obtain ⟨fields, -, h⟩ := h
  split at h
  · simp only [Option.bind_eq_some_iff, Option.some.injEq] at h
    obtain ⟨-, -, -, -, -, -, -, -, -, -, first, hfirst, last, hlast, rfl⟩ := h
    exact ⟨lt_of_below? hfirst, lt_of_below? hlast⟩
  · cases h

end FunctionDecl

/-- An outline whose lines fit words. -/
structure Outline.Fits (o : Outline) : Prop where
  classes : ∀ c ∈ o.classes, c.Fits
  functions : ∀ f ∈ o.functions, f.Fits

namespace Outline

/-- A table of calls as JSON. -/
def callsJson (calls : CallGraph) : Json :=
  .object (calls.entries.map fun (caller, callees) => (caller, .ofList .string callees.keys))

/-- A table of calls is read back. -/
theorem tableOf?_callsJson (calls : CallGraph) :
    ((callsJson calls).tableOf? (Json.listOf? Json.string?)).map (·.map Table.Keys.ofList) =
      some calls := by
  have hread : (calls.entries.mapM fun e => (Json.listOf? Json.string? (.ofList .string e.2.keys)).map
      fun callees => (e.1, callees)) = some (calls.entries.map fun e => (e.1, e.2.keys)) := by
    simp only [Json.strings_read, Option.map_some]
    exact mapM_some _ _
  have hascending : (calls.entries.map fun e => (e.1, e.2.keys)).Pairwise fun a b => a.1 < b.1 := by
    rw [List.pairwise_map]
    exact calls.ascending
  rw [callsJson, Json.tableOf?, List.mapM_map]
  simp only [Function.comp_def, hread, Option.map_some, Option.some.injEq]
  refine Table.ext ?_
  rw [Table.entries_map, Table.entries_ofList hascending, List.map_map]
  simp only [Function.comp_def, Table.keys_ofList_keys]
  exact List.map_id _

theorem ofJson?_toJson {o : Outline} (h : o.Fits) : ofJson? o.toJson = some o := by
  have hclasses : Json.listOf? ClassDecl.ofJson? (.ofList ClassDecl.toJson o.classes) =
      some o.classes :=
    Json.listOf?_ofList fun c hc => ClassDecl.ofJson?_toJson (h.classes c hc)
  have hfunctions : Json.listOf? FunctionDecl.ofJson? (.ofList FunctionDecl.toJson o.functions) =
      some o.functions :=
    Json.listOf?_ofList fun f hf => FunctionDecl.ofJson?_toJson (h.functions f hf)
  have hcalls := tableOf?_callsJson o.callGraph
  simp only [Option.map_eq_some_iff, callsJson] at hcalls
  obtain ⟨table, htable, hmap⟩ := hcalls
  simp [ofJson?, toJson, Json.record?, Json.Field.ofMembers?, Json.Field.occurrences,
    Json.strings_read, Json.optional_read, hclasses, hfunctions, htable, hmap]

theorem reads_toJson (depth : Nat) {o : Outline} (h : o.Fits) :
    Reads real (depth + 5) o.toJson (some o.toJson) := by
  refine reads_members _ ?_
  simp only [List.mem_cons, List.not_mem_nil, or_false, forall_eq_or_imp, forall_eq]
  refine ⟨reads_ofList fun _ _ => reads_string _ _,
    reads_ofList fun c hc => ClassDecl.reads_toJson _ (h.classes c hc),
    reads_ofList fun f hf => FunctionDecl.reads_toJson _ (h.functions f hf),
    reads_members _ ?_, reads_ofOption _ fun _ _ => reads_string _ _⟩
  intro m hm
  obtain ⟨e, -, rfl⟩ := List.mem_map.1 hm
  exact reads_ofList fun _ _ => reads_string _ _

theorem fits_of_ofJson? {j : Json} {o : Outline} (h : ofJson? j = some o) : o.Fits := by
  unfold ofJson? at h
  simp only [Option.bind_eq_bind, Option.bind_eq_some_iff, Option.pure_def] at h
  obtain ⟨fields, -, h⟩ := h
  split at h
  · simp only [Option.bind_eq_some_iff, Option.some.injEq] at h
    obtain ⟨-, -, classes, hclasses, functions, hfunctions, -, -, -, -, rfl⟩ := h
    exact ⟨Json.forall_of_listOf? (fun _ _ => ClassDecl.fits_of_ofJson?) hclasses,
      Json.forall_of_listOf? (fun _ _ => FunctionDecl.fits_of_ofJson?) hfunctions⟩
  · cases h

end Outline

/-! ## Entries -/

namespace Cache

theorem timestamp?_text (t : Timestamp) : timestamp? (.string t.text) = some t := by
  simp [timestamp?, Json.string?, Timestamp.ofText?, t.valid]

/-- An origin whose number of requests fits half a word. -/
def Origin.Fits (o : Origin) : Prop := o.attempts < 2 ^ 32

namespace Origin

theorem ofJson?_toJson {o : Origin} (h : o.Fits) : ofJson? o.toJson = some o := by
  have hattempts : Json.below? (2 ^ 32) (.ofNat o.attempts) = some o.attempts := by
    have : o.attempts < 2 ^ 32 := h
    simpa [Json.below?, Json.nat?, Json.int?, Json.ofNat, Json.ofInt] using this
  have htime := timestamp?_text o.time
  simp only [Nat.reducePow] at hattempts
  simp [ofJson?, toJson, Json.record?, Json.Field.ofMembers?, Json.Field.occurrences,
    hattempts, htime, Json.string?]

theorem reads_toJson (depth : Nat) {o : Origin} (h : o.Fits) :
    Reads real (depth + 2) o.toJson (some o.toJson) := by
  have hattempts : o.attempts < 2 ^ 64 := Nat.lt_of_lt_of_le h (by decide)
  refine reads_members _ ?_
  simp only [List.mem_cons, List.not_mem_nil, or_false, forall_eq_or_imp, forall_eq]
  exact ⟨reads_string _ _, reads_string _ _, reads_string _ _, reads_nat _ hattempts,
    reads_string _ _⟩

theorem fits_of_ofJson? {j : Json} {o : Origin} (h : ofJson? j = some o) : o.Fits := by
  unfold ofJson? at h
  simp only [Option.bind_eq_bind, Option.bind_eq_some_iff, Option.pure_def] at h
  obtain ⟨fields, -, h⟩ := h
  split at h
  · simp only [Option.bind_eq_some_iff, Option.some.injEq] at h
    obtain ⟨-, -, -, -, -, -, attempts, hattempts, -, -, rfl⟩ := h
    exact lt_of_below? hattempts
  · cases h

end Origin

namespace Translation

theorem ofJson?_toJson {t : Translation} (h : t.origin.Fits) : ofJson? t.toJson = some t := by
  simp [ofJson?, toJson, Json.record?, Json.Field.ofMembers?, Json.Field.occurrences,
    Origin.ofJson?_toJson h, Json.string?]

theorem reads_toJson (depth : Nat) {t : Translation} (h : t.origin.Fits) :
    Reads real (depth + 3) t.toJson (some t.toJson) := by
  refine reads_members _ ?_
  simp only [List.mem_cons, List.not_mem_nil, or_false, forall_eq_or_imp, forall_eq]
  exact ⟨reads_string _ _, Origin.reads_toJson _ h⟩

theorem fits_of_ofJson? {j : Json} {t : Translation} (h : ofJson? j = some t) : t.origin.Fits := by
  unfold ofJson? at h
  simp only [Option.bind_eq_bind, Option.bind_eq_some_iff, Option.pure_def] at h
  obtain ⟨fields, -, h⟩ := h
  split at h
  · simp only [Option.bind_eq_some_iff, Option.some.injEq] at h
    obtain ⟨-, -, origin, horigin, rfl⟩ := h
    exact Origin.fits_of_ofJson? horigin
  · cases h

end Translation

/-- An entry whose numbers fit machine words. -/
structure Entry.Fits (e : Entry) : Prop where
  outline : ∀ o, e.outline = some o → o.Fits
  translation : ∀ t, e.translation = some t → t.origin.Fits

namespace Entry

theorem ofJson?_toJson {e : Entry} (h : e.Fits) : ofJson? e.toJson = some e := by
  have houtline : Json.optional? Outline.ofJson? (some (.ofOption Outline.toJson e.outline)) =
      some e.outline :=
    Json.optional?_ofOption (fun _ h => by cases h) fun o ho => Outline.ofJson?_toJson (h.outline o ho)
  have htranslation : Json.optional? Translation.ofJson?
      (some (.ofOption Translation.toJson e.translation)) = some e.translation :=
    Json.optional?_ofOption (fun _ h => by cases h)
      fun t ht => Translation.ofJson?_toJson (h.translation t ht)
  have htime := timestamp?_text e.time
  simp [ofJson?, toJson, Json.record?, Json.Field.ofMembers?, Json.Field.occurrences, houtline,
    htranslation, htime, Json.string?]

theorem reads_toJson {e : Entry} (h : e.Fits) :
    Reads real maxDepth e.toJson (some e.toJson) := by
  refine reads_members 127 ?_
  simp only [List.mem_cons, List.not_mem_nil, or_false, forall_eq_or_imp, forall_eq]
  exact ⟨reads_string 126 _, reads_ofOption 126 fun o ho =>
      Outline.reads_toJson 122 (h.outline o ho),
    reads_ofOption 126 fun t ht => Translation.reads_toJson 124 (h.translation t ht),
    reads_string 126 _⟩

theorem fits_of_ofJson? {j : Json} {e : Entry} (h : ofJson? j = some e) : e.Fits := by
  unfold ofJson? at h
  simp only [Option.bind_eq_bind, Option.bind_eq_some_iff, Option.pure_def] at h
  obtain ⟨fields, -, h⟩ := h
  split at h
  · simp only [Option.bind_eq_some_iff, Option.some.injEq] at h
    obtain ⟨-, -, outline, houtline, translation, htranslation, -, -, rfl⟩ := h
    refine ⟨?_, ?_⟩
    · rintro o rfl
      exact Json.of_optional? (fun _ _ => Outline.fits_of_ofJson?) houtline
    · rintro t rfl
      exact Json.of_optional? (p := fun t => t.origin.Fits) (fun _ _ => Translation.fits_of_ofJson?)
        htranslation
  · cases h

/-- An entry that fits is read back from its bytes. -/
theorem decode?_encode {e : Entry} (h : e.Fits) : decode? e.encode = some e := by
  rw [decode?, encode, Text.Utf8.decode?_toUTF8]
  simp only [Option.bind_eq_bind, Option.bind_some]
  rw [parse?_render (reads_toJson h), Option.bind_some, ofJson?_toJson h]

/-- An entry that was read fits. -/
theorem fits_of_decode? {bytes : ByteArray} {e : Entry} (h : decode? bytes = some e) : e.Fits := by
  simp only [decode?, Option.bind_eq_bind, Option.bind_eq_some_iff] at h
  obtain ⟨-, -, j, -, hj⟩ := h
  exact fits_of_ofJson? hj

end Entry

end Cache

end Recast
