/-
  Proofs/Cache/Outages.lean --- a cache whose store fails or makes things up.

  Whatever keeps the values, an operation only counts a file as known when the call that it makes
  itself has read an entry about that content (`Warranted`), and of all the calls that fail the
  first one is reported, and no other (`failsOpen`).
-/
import Recast.Proofs.Cache.Calls

set_option autoImplicit false

namespace Recast.Cache

variable {σ α : Type}

/-! ## What is reported -/

/-- What is said when the store fails. -/
def failureText (e : StoreError) : String :=
  "structural cache store failed (" ++ e.message ++ "); treating files as changed"

/-- The failure of a call that stands in the way of the cache.  Asking for the number of entries
does not, and neither do bytes that are no entry. -/
def Answered.failure? : Answered → Option StoreError
  | .get _ (.error e) => some e
  | .set _ _ (.error e) => some e
  | .delete _ (.error e) => some e
  | .clear (.error e) => some e
  | _ => none

/-- What calls give to report. -/
def reported (calls : List Answered) : Option String :=
  (calls.findSome? Answered.failure?).map failureText

theorem reported_append (calls more : List Answered) :
    reported (calls ++ more) = (reported calls).or (reported more) := by
  rw [reported, List.findSome?_append]
  unfold reported
  cases calls.findSome? Answered.failure? <;> rfl

theorem isSome_reported {calls : List Answered} :
    (reported calls).isSome = true ↔ ∃ call ∈ calls, call.failure?.isSome = true := by
  rw [reported, Option.isSome_map, List.findSome?_isSome_iff]

/-- The cache has noted what calls give to report, and has the store that it had. -/
structure Notes (c : Cache) (calls : List Answered) (d : Cache) : Prop where
  failure : d.failure = c.failure.or (reported calls)
  store : d.store = c.store

namespace Notes

theorem nothing (c : Cache) {calls : List Answered} (h : reported calls = none) :
    Notes c calls c := by
  refine ⟨?_, rfl⟩
  rw [h, Option.or_none]

theorem trans {c d e : Cache} {calls more : List Answered} (h : Notes c calls d)
    (h' : Notes d more e) : Notes c (calls ++ more) e := by
  refine ⟨?_, h'.store.trans h.store⟩
  rw [h'.failure, h.failure, reported_append, Option.or_assoc]

theorem failed (c : Cache) {call : Answered} {e : StoreError} (h : call.failure? = some e) :
    Notes c [call] (c.reportFailure e).1 := by
  have hreported : reported [call] = some (failureText e) := by
    rw [reported, List.findSome?_cons, h]
    rfl
  refine ⟨?_, (consulted_reportFailure c e).store⟩
  rw [hreported]
  unfold reportFailure
  cases hfailure : c.failure with
  | none => rfl
  | some text => exact hfailure

theorem count {c d : Cache} {calls : List Answered} (h : Notes c calls d) (found : Bool) :
    Notes c calls (d.count found) := by
  unfold Cache.count
  split
  · exact ⟨h.failure, h.store⟩
  · exact ⟨h.failure, h.store⟩

theorem heed (c : Cache) (path : Path) (answer : Except StoreError (Option ByteArray)) :
    Notes c [.get (entryKey path) answer] (c.heed path answer).2.1 := by
  unfold Cache.heed
  split
  · exact .failed c rfl
  · exact .nothing c rfl
  · split
    · exact .nothing c rfl
    · exact .nothing c rfl

theorem updating (c : Cache) (path : Path) (digest : Digest) (change : Entry → Entry)
    (k : Keeper σ) (o : σ) :
    Notes c ((c.updating path digest change).on k o).2.1
      ((c.updating path digest change).on k o).1.2.1 := by
  have hread := heed c path (k.get (entryKey path) o).1
  unfold Cache.updating
  rw [Calls.on_get]
  dsimp only
  generalize c.heed path (k.get (entryKey path) o).1 = heeded at hread
  obtain ⟨entry, d, log⟩ := heeded
  rw [Calls.on_set]
  dsimp only at hread ⊢
  generalize k.set (entryKey path) _ (k.get (entryKey path) o).2 = written
  obtain ⟨answer, q⟩ := written
  cases answer with
  | ok u => exact hread.trans (.nothing d rfl)
  | error e => exact hread.trans (.failed d rfl)

/-- An operation notes what its calls give to report. -/
theorem calls (c : Cache) (op : Operation α) (k : Keeper σ) (o : σ) :
    Notes c ((op.calls k.name c).on k o).2.1 ((op.calls k.name c).on k o).1.2.1 := by
  cases op with
  | isStale path content =>
    rw [Operation.calls]
    split
    · exact .nothing c rfl
    · rw [Calls.on_get]
      exact heed c path _
  | outline? path digest =>
    rw [Operation.calls]
    rw [Calls.on_get]
    exact heed c path _
  | translation? path digest =>
    rw [Operation.calls]
    split
    · exact (nothing c rfl).count false
    · rw [Calls.on_get]
      exact (heed c path _).count _
  | putOutline path digest outline =>
    rw [Operation.calls]
    exact updating c path digest _ k o
  | putTranslation path digest translation =>
    rw [Operation.calls]
    exact updating c path digest _ k o
  | clearFile path =>
    rw [Operation.calls]
    rw [Calls.on_delete]
    dsimp only
    cases (k.delete (entryKey path) o).1 with
    | ok u => exact .nothing c rfl
    | error e => exact .failed c rfl
  | clear =>
    rw [Operation.calls]
    rw [Calls.on_clear]
    dsimp only
    cases (k.clear o).1 with
    | ok n => exact .nothing c rfl
    | error e => exact .failed c rfl
  | stats => exact .nothing c rfl

end Notes

/-! ## What is answered -/

/-- An entry about content with a digest was read for a file. -/
def Read (calls : List Answered) (path : Path) (digest : Digest) (e : Entry) : Prop :=
  ∃ bytes, .get (entryKey path) (.ok (some bytes)) ∈ calls ∧ Entry.decode? bytes = some e ∧
    e.digest = digest

/-- An operation that gives an answer only because of what its calls were answered. -/
def Operation.Warranted (calls : List Answered) : Operation α → α → Prop
  | .isStale path content, stale =>
    stale = false → ∃ e, Read calls path (Digest.ofBytes content) e
  | .outline? path digest, found =>
    ∀ outline, found = some outline → ∃ e, Read calls path digest e ∧ e.outline = some outline
  | .translation? path digest, found =>
    ∀ translation, found = some translation →
      ∃ e, Read calls path digest e ∧ e.translation = some translation
  | .clear, removed => removed ≠ 0 → .clear (.ok removed) ∈ calls
  | .stats, figures => ∀ n, figures.entries = some n → .size (.ok n) ∈ calls
  | .putOutline .., _ | .putTranslation .., _ | .clearFile .., _ => True

/-- What is found in an answer was read there. -/
theorem read_of_heed {c : Cache} {path : Path} {digest : Digest}
    {answer : Except StoreError (Option ByteArray)} {e : Entry}
    (h : matching digest (c.heed path answer).1 = some e) :
    Read [.get (entryKey path) answer] path digest e := by
  obtain ⟨hfound, hdigest⟩ := Option.filter_eq_some_iff.1 h
  unfold heed at hfound
  split at hfound
  · cases hfound
  · cases hfound
  · next bytes =>
    split at hfound
    · next entry hdecode =>
      cases hfound
      exact ⟨bytes, .head _, hdecode, of_decide_eq_true hdigest⟩
    · cases hfound

theorem warranted_calls (c : Cache) (op : Operation α) (k : Keeper σ) (o : σ) :
    op.Warranted ((op.calls k.name c).on k o).2.1 ((op.calls k.name c).on k o).1.1 := by
  cases op with
  | isStale path content =>
    rw [Operation.calls, Operation.Warranted]
    split
    · exact nofun
    · intro hfresh
      obtain ⟨e, he⟩ := Option.isSome_iff_exists.1 (Option.isNone_eq_false_iff.1 hfresh)
      exact ⟨e, read_of_heed he⟩
  | outline? path digest =>
    rw [Operation.calls, Operation.Warranted]
    intro outline hfound
    obtain ⟨e, he, houtline⟩ := Option.bind_eq_some_iff.1 hfound
    exact ⟨e, read_of_heed he, houtline⟩
  | translation? path digest =>
    rw [Operation.calls, Operation.Warranted]
    split
    · exact nofun
    · intro translation hfound
      obtain ⟨e, he, htranslation⟩ := Option.bind_eq_some_iff.1 hfound
      exact ⟨e, read_of_heed he, htranslation⟩
  | putOutline path digest outline =>
    rw [Operation.Warranted]
    trivial
  | putTranslation path digest translation =>
    rw [Operation.Warranted]
    trivial
  | clearFile path =>
    rw [Operation.Warranted]
    trivial
  | clear =>
    rw [Operation.calls, Operation.Warranted]
    rw [Calls.on_clear]
    dsimp only
    cases (k.clear o).1 with
    | ok n => exact fun _ => .head _
    | error e => exact fun hne => absurd rfl hne
  | stats =>
    rw [Operation.calls, Operation.Warranted]
    rw [Calls.on_size]
    dsimp only
    cases (k.size o).1 with
    | ok n =>
      rintro _ ⟨rfl⟩
      exact .head _
    | error e => exact nofun

/-! ## Histories -/

/-- What a keeper and a cache come to by operations, with all calls on the way. -/
inductive Operated (k : Keeper σ) (c : Cache) (o : σ) : List Answered → Cache → σ → Prop
  | start : Operated k c o [] c o
  | next {α : Type} {calls : List Answered} {d : Cache} {q : σ} (before : Operated k c o calls d q)
      (op : Operation α) :
      Operated k c o (calls ++ ((op.calls k.name d).on k q).2.1)
        ((op.calls k.name d).on k q).1.2.1 ((op.calls k.name d).on k q).2.2

theorem Operated.notes {k : Keeper σ} {c d : Cache} {o q : σ} {calls : List Answered}
    (h : Operated k c o calls d q) : Notes c calls d := by
  induction h with
  | start => exact .nothing c rfl
  | next before op ih => exact ih.trans (.calls _ op k _)

/-- A cache fails open.  Whatever answers the keeper gives, and whatever was done before, an
operation comes to an end, and it answers that a file is known only if its own call has read an
entry that says so.  There is a warning exactly if a call has failed that stands in the way, and
never a second one.  With its own store as the keeper this is what the cache does. -/
theorem failsOpen {k : Keeper σ} {c d : Cache} {o q : σ} {calls : List Answered}
    (store : c.isAvailable = true) (fresh : c.failure = none) (h : Operated k c o calls d q)
    (op : Operation α) :
    let result := (op.calls k.name d).on k q
    op.Warranted result.2.1 result.1.1 ∧
      result.1.2.1.warnings = (reported (calls ++ result.2.1)).toList ∧
      result.1.2.1.warnings.length ≤ 1 ∧
      (result.1.2.1.warnings ≠ [] ↔ ∃ call ∈ calls ++ result.2.1, call.failure?.isSome = true) ∧
      ∀ s files, d.store = .ok s →
        op.run d files = putBack ((op.calls s.name d).on (Store.keeper s.name) (s, files)) := by
  intro result
  have hnotes : Notes c (calls ++ result.2.1) result.1.2.1 := h.notes.trans (.calls d op k q)
  have hwarnings : result.1.2.1.warnings = (reported (calls ++ result.2.1)).toList := by
    have hfailure := hnotes.failure
    rw [fresh, Option.none_or] at hfailure
    unfold warnings
    rw [hnotes.store, hfailure]
    unfold isAvailable at store
    cases hstore : c.store with
    | ok s => rfl
    | error reason =>
      rw [hstore] at store
      cases store
  refine ⟨warranted_calls d op k q, hwarnings, ?_, ?_, fun s files hs => run_eq_on hs files op⟩
  · rw [hwarnings]
    exact Option.length_toList_le
  · rw [hwarnings, ← isSome_reported, ne_eq, Option.toList_eq_nil_iff, Option.isSome_iff_ne_none]

/-- The answer of a keeper that fails whenever it was asked an even number of times before. -/
def everySecond {β : Type} (answer : β) (n : Nat) : Except StoreError β × Nat :=
  (if n % 2 = 0 then .error (.unavailable "out of order") else .ok answer, n + 1)

/-- A keeper that fails every second time, and has no entries but bytes for every key. -/
def fickle : Keeper Nat where
  name := "fickle"
  get _ := everySecond (some "no entry".toUTF8)
  set _ _ := everySecond ()
  delete _ := everySecond ()
  clear := everySecond 0
  size := everySecond 0

/-- Neither a number that cannot be told nor bytes that are no entry are a reason for a warning; a
look-up that fails in the middle of a change is. -/
theorem failsOpen_fickle :
    ∃ calls d q, Operated fickle { store := .ok .memory } 0 calls d q ∧ d.warnings = [] ∧
      let put : Operation Unit := .putOutline ⟨"/a.py"⟩ (Digest.ofString "") {}
      ((put.calls fickle.name d).on fickle q).1.2.1.warnings.length = 1 := by
  let c : Cache := { store := .ok .memory }
  have havailable : c.isAvailable = true := rfl
  have hasked : Operated fickle c 0 _ _ _ := Operated.start.next .stats
  have hlooked : Operated fickle c 0 _ _ _ := hasked.next (.isStale ⟨"/a.py"⟩ ByteArray.empty)
  obtain ⟨-, -, hone, hwarned, -⟩ := failsOpen havailable rfl hlooked
    (.putOutline ⟨"/a.py"⟩ (Digest.ofString "") {})
  refine ⟨_, _, _, hlooked, by decide +kernel, ?_⟩
  have hsome := hwarned.2 (List.any_eq_true.1 (by decide +kernel))
  exact Nat.le_antisymm hone (List.length_pos_iff.2 hsome)

end Recast.Cache
