/-
  Proofs/Cache/Calls.lean --- what a cache does, as calls of whatever keeps its values.

  A `Keeper` may answer a call as it likes: it may fail, and it may give any bytes.  The operations
  of a cache are written as `Calls`, in which the answers decide about what comes next.  With the
  store of the cache as the keeper they are what the cache does (`run_eq_on`).
-/
import Recast.Proofs.Cache.Store

set_option autoImplicit false

namespace Recast.Cache

/-! ## Keepers -/

/-- Whoever keeps the values of a cache, with a state in `σ`.  Nothing is assumed about the answers:
they may depend on every call that was made before. -/
structure Keeper (σ : Type) where
  name : String
  get : String → σ → Except StoreError (Option ByteArray) × σ
  set : String → ByteArray → σ → Except StoreError Unit × σ
  delete : String → σ → Except StoreError Unit × σ
  clear : σ → Except StoreError Nat × σ
  size : σ → Except StoreError Nat × σ

/-- A call with its answer. -/
inductive Answered where
  | get (key : String) (answer : Except StoreError (Option ByteArray))
  | set (key : String) (value : ByteArray) (answer : Except StoreError Unit)
  | delete (key : String) (answer : Except StoreError Unit)
  | clear (answer : Except StoreError Nat)
  | size (answer : Except StoreError Nat)

/-- Work with a result in `α` that makes calls. -/
inductive Calls (α : Type) where
  | done (result : α)
  | get (key : String) (next : Except StoreError (Option ByteArray) → Calls α)
  | set (key : String) (value : ByteArray) (next : Except StoreError Unit → Calls α)
  | delete (key : String) (next : Except StoreError Unit → Calls α)
  | clear (next : Except StoreError Nat → Calls α)
  | size (next : Except StoreError Nat → Calls α)

variable {σ α : Type}

/-- What a keeper makes of calls: the result, the calls with their answers, and its state. -/
def Calls.on (k : Keeper σ) : Calls α → σ → α × List Answered × σ
  | .done result, o => (result, [], o)
  | .get key next, o =>
    let (answer, o) := k.get key o
    let (result, answered, o) := (next answer).on k o
    (result, .get key answer :: answered, o)
  | .set key value next, o =>
    let (answer, o) := k.set key value o
    let (result, answered, o) := (next answer).on k o
    (result, .set key value answer :: answered, o)
  | .delete key next, o =>
    let (answer, o) := k.delete key o
    let (result, answered, o) := (next answer).on k o
    (result, .delete key answer :: answered, o)
  | .clear next, o =>
    let (answer, o) := k.clear o
    let (result, answered, o) := (next answer).on k o
    (result, .clear answer :: answered, o)
  | .size next, o =>
    let (answer, o) := k.size o
    let (result, answered, o) := (next answer).on k o
    (result, .size answer :: answered, o)

section

variable (k : Keeper σ) (o : σ)

theorem Calls.on_get (key : String) (next : Except StoreError (Option ByteArray) → Calls α) :
    (Calls.get key next).on k o =
      let rest := (next (k.get key o).1).on k (k.get key o).2
      (rest.1, .get key (k.get key o).1 :: rest.2.1, rest.2.2) :=
  rfl

theorem Calls.on_set (key : String) (value : ByteArray)
    (next : Except StoreError Unit → Calls α) :
    (Calls.set key value next).on k o =
      let rest := (next (k.set key value o).1).on k (k.set key value o).2
      (rest.1, .set key value (k.set key value o).1 :: rest.2.1, rest.2.2) :=
  rfl

theorem Calls.on_delete (key : String) (next : Except StoreError Unit → Calls α) :
    (Calls.delete key next).on k o =
      let rest := (next (k.delete key o).1).on k (k.delete key o).2
      (rest.1, .delete key (k.delete key o).1 :: rest.2.1, rest.2.2) :=
  rfl

theorem Calls.on_clear (next : Except StoreError Nat → Calls α) :
    (Calls.clear next).on k o =
      let rest := (next (k.clear o).1).on k (k.clear o).2
      (rest.1, .clear (k.clear o).1 :: rest.2.1, rest.2.2) :=
  rfl

theorem Calls.on_size (next : Except StoreError Nat → Calls α) :
    (Calls.size next).on k o =
      let rest := (next (k.size o).1).on k (k.size o).2
      (rest.1, .size (k.size o).1 :: rest.2.1, rest.2.2) :=
  rfl

end

/-! ## Operations -/

/-- The operations of a cache, with the kind of answer that they give. -/
inductive Operation : Type → Type
  | isStale (path : Path) (content : ByteArray) : Operation Bool
  | outline? (path : Path) (digest : Digest) : Operation (Option Outline)
  | translation? (path : Path) (digest : Digest) : Operation (Option Translation)
  | putOutline (path : Path) (digest : Digest) (outline : Outline) : Operation Unit
  | putTranslation (path : Path) (digest : Digest) (translation : Translation) : Operation Unit
  | clearFile (path : Path) : Operation Unit
  | clear : Operation Nat
  | stats : Operation Stats

/-- What the cache does, and what it becomes, with its files and what it has to say. -/
def Operation.run (c : Cache) (files : Files) : Operation α → α × Cache × Files × Log
  | .isStale path content =>
    let (stale, c, log) := c.isStale files path content
    (stale, c, files, log)
  | .outline? path digest =>
    let (found, c, log) := c.outline? files path digest
    (found, c, files, log)
  | .translation? path digest =>
    let (found, c, log) := c.translation? files path digest
    (found, c, files, log)
  | .putOutline path digest outline => ((), c.putOutline files path digest outline)
  | .putTranslation path digest translation =>
    ((), c.putTranslation files path digest translation)
  | .clearFile path => ((), c.clearFile files path)
  | .clear => c.clear files
  | .stats => (c.stats files, c, files, [])

/-- What a cache makes of the answer to a look-up of a file. -/
def heed (c : Cache) (path : Path) :
    Except StoreError (Option ByteArray) → Option Entry × Cache × Log
  | .error e => (none, c.reportFailure e)
  | .ok none => (none, c, [])
  | .ok (some bytes) =>
    match Entry.decode? bytes with
    | some entry => (some entry, c, [])
    | none => (none, c, [.warn (StoreError.corrupt (entryKey path) "not an entry").message])

/-- The calls for a change of the entry of a file. -/
def updating (c : Cache) (path : Path) (digest : Digest) (change : Entry → Entry) :
    Calls (Unit × Cache × Log) :=
  .get (entryKey path) fun answer =>
    let (entry, c, log) := c.heed path answer
    let entry := change ((matching digest entry).getD { digest })
    .set (entryKey path) { entry with time := c.now }.encode fun
      | .ok () => .done ((), c, log)
      | .error e =>
        let (c, more) := c.reportFailure e
        .done ((), c, log ++ more)

/-- The calls of an operation, when the values are with a keeper of a name.  The store that the
cache has itself is not touched. -/
def Operation.calls (name : String) (c : Cache) : Operation α → Calls (α × Cache × Log)
  | .isStale path content =>
    if c.force then .done (true, c, [])
    else .get (entryKey path) fun answer =>
      let (entry, c, log) := c.heed path answer
      .done ((matching (Digest.ofBytes content) entry).isNone, c, log)
  | .outline? path digest =>
    .get (entryKey path) fun answer =>
      let (entry, c, log) := c.heed path answer
      .done ((matching digest entry).bind (·.outline), c, log)
  | .translation? path digest =>
    if c.force then .done (none, c.count false, [])
    else .get (entryKey path) fun answer =>
      let (entry, c, log) := c.heed path answer
      let translation := (matching digest entry).bind (·.translation)
      .done (translation, c.count translation.isSome, log)
  | .putOutline path digest outline =>
    c.updating path digest fun e => { e with outline := some outline }
  | .putTranslation path digest translation =>
    c.updating path digest fun e => { e with translation := some translation }
  | .clearFile path =>
    .delete (entryKey path) fun
      | .ok () => .done ((), c, [])
      | .error e => .done ((), c.reportFailure e)
  | .clear =>
    .clear fun
      | .ok n => .done (n, c, [])
      | .error e => .done (0, c.reportFailure e)
  | .stats => .size fun answer => .done (⟨name, true, answer.toOption, c.hits, c.misses⟩, c, [])

/-! ## The store as a keeper -/

/-- A store that is changed, or stays as it is when it fails. -/
def Store.changed (o : Store × Files) :
    Except StoreError (Store × Files) → Except StoreError Unit × (Store × Files)
  | .ok changed => (.ok (), changed)
  | .error e => (.error e, o)

/-- Stores, with the files that they are kept in. -/
def Store.keeper (name : String) : Keeper (Store × Files) where
  name
  get key o := (o.1.get o.2 key, o)
  set key value o := Store.changed o (o.1.set o.2 key value)
  delete key o := Store.changed o (o.1.delete o.2 key)
  clear o := o.1.clear o.2
  size o := (o.1.size o.2, o)

theorem load_eq_heed {c : Cache} {s : Store} (h : c.store = .ok s) (files : Files) (path : Path) :
    c.load files path = c.heed path (s.get files (entryKey path)) := by
  cases hget : s.get files (entryKey path) with
  | error e => simp only [load, heed, h, hget]
  | ok found =>
    cases found with
    | none => simp only [load, heed, h, hget]
    | some bytes =>
      cases hdecode : Entry.decode? bytes <;> simp only [load, heed, h, hget, hdecode]

theorem store_heed (c : Cache) (path : Path) (answer : Except StoreError (Option ByteArray)) :
    (c.heed path answer).2.1.store = c.store := by
  unfold heed
  repeat' split
  all_goals first | exact (consulted_reportFailure c _).store | rfl

/-- What was made of calls by the keeper that the store of a cache is, put back into the cache. -/
def putBack (result : (α × Cache × Log) × List Answered × (Store × Files)) :
    α × Cache × Files × Log :=
  (result.1.1, { result.1.2.1 with store := .ok result.2.2.1 }, result.2.2.2, result.1.2.2)

theorem putBack_same {c : Cache} {s : Store} (h : c.store = .ok s) (a : α) (log : Log)
    (answered : List Answered) (files : Files) :
    putBack ((a, c, log), answered, (s, files)) = (a, c, files, log) := by
  rw [putBack, ← h]

/-- A failure is reported whatever store there is. -/
theorem reportFailure_withStore (c : Cache) (store : Except String Store) (e : StoreError) :
    { c with store }.reportFailure e =
      ({ (c.reportFailure e).1 with store }, (c.reportFailure e).2) := by
  obtain ⟨_, _, _, failure, _, _⟩ := c
  cases failure <;> rfl

theorem update_eq_updating {c : Cache} {s : Store} (h : c.store = .ok s) (files : Files)
    (path : Path) (digest : Digest) (change : Entry → Entry) :
    ((), c.update files path digest change) =
      putBack ((c.updating path digest change).on (Store.keeper s.name) (s, files)) := by
  have hstore := store_heed c path (s.get files (entryKey path))
  unfold update updating
  rw [h, load_eq_heed h, Calls.on_get]
  dsimp only [Store.keeper]
  generalize c.heed path (s.get files (entryKey path)) = heeded at hstore
  obtain ⟨entry, d, log⟩ := heeded
  rw [Calls.on_set]
  dsimp only at hstore ⊢
  cases s.set files (entryKey path) _ with
  | ok changed => rfl
  | error e =>
    have hreport := (consulted_reportFailure d e).store.trans (hstore.trans h)
    exact (putBack_same hreport () _ _ files).symm

/-- With the store of a cache as the keeper, the calls of an operation are what the cache does. -/
theorem run_eq_on {c : Cache} {s : Store} (h : c.store = .ok s) (files : Files)
    (op : Operation α) :
    op.run c files = putBack ((op.calls s.name c).on (Store.keeper s.name) (s, files)) := by
  have hlook (path : Path) := load_eq_heed h files path
  have hstore (path : Path) := (store_heed c path (s.get files (entryKey path))).trans h
  cases op with
  | isStale path content =>
    unfold Operation.run Operation.calls isStale
    dsimp only
    split
    · exact (putBack_same h true [] [] files).symm
    · rw [hlook, Calls.on_get]
      exact (putBack_same (hstore path) _ _ _ files).symm
  | outline? path digest =>
    unfold Operation.run Operation.calls outline?
    dsimp only
    rw [hlook, Calls.on_get]
    exact (putBack_same (hstore path) _ _ _ files).symm
  | translation? path digest =>
    unfold Operation.run Operation.calls translation?
    dsimp only
    split
    · exact (putBack_same ((consulted_count c false).store.trans h) none [] [] files).symm
    · rw [hlook, Calls.on_get]
      exact (putBack_same ((consulted_count _ _).store.trans (hstore path)) _ _ _ files).symm
  | putOutline path digest outline => exact update_eq_updating h files path digest _
  | putTranslation path digest translation => exact update_eq_updating h files path digest _
  | clearFile path =>
    unfold Operation.run Operation.calls clearFile
    rw [h, Calls.on_delete]
    dsimp only [Store.keeper]
    cases s.delete files (entryKey path) with
    | ok changed => rfl
    | error e =>
      exact (putBack_same ((consulted_reportFailure c e).store.trans h) () _ _ files).symm
  | clear =>
    unfold Operation.run Operation.calls clear
    rw [h, Calls.on_clear]
    dsimp only [Store.keeper]
    obtain ⟨answer, t, g⟩ := s.clear files
    cases answer with
    | ok n => rfl
    | error e =>
      dsimp only
      rw [reportFailure_withStore]
      rfl
  | stats =>
    unfold Operation.run Operation.calls stats
    rw [h, Calls.on_size]
    exact (putBack_same h _ _ _ files).symm

end Recast.Cache
