/-
  Cache/Basic.lean --- the cache of outlines and translations.

  An entry counts only for content with the digest that it was made for.  When the store cannot be
  used every file counts as changed, so an outage costs work but never gives a wrong answer.
-/
import Recast.Cache.EntryText
import Recast.Cache.Store
import Recast.Log

set_option autoImplicit false

namespace Recast

/-- A cache. -/
structure Cache where
  /-- The store, or why there is none. -/
  store : Except String Cache.Store
  /-- Whether translations count as missing. -/
  force : Bool := false
  /-- The time that is written into entries. -/
  now : Timestamp := .epoch
  /-- The first failure of the store. -/
  failure : Option String := none
  hits : Nat := 0
  misses : Nat := 0

namespace Cache

/-- The kinds of stores that can be asked for. -/
inductive Backend where
  | directory
  | remote
  | memory
  | none
  deriving DecidableEq, Inhabited

/-- All kinds of stores. -/
def Backend.all : List Backend := [.directory, .remote, .memory, .none]

/-- The name of a kind of store. -/
def Backend.label : Backend → String
  | .directory => "dir"
  | .remote => "redis"
  | .memory => "memory"
  | .none => "none"

/-- The kind of store with a name. -/
def Backend.ofLabel? (s : String) : Option Backend := all.find? fun b => b.label == s

theorem Backend.ofLabel?_label (b : Backend) : ofLabel? b.label = some b := by
  cases b <;> decide

/-- The settings of the cache. -/
structure Settings where
  backend : Backend := .directory
  /-- The address of a remote store. -/
  address : String := "redis://127.0.0.1:6379"
  /-- What the keys in a remote store begin with. -/
  keyStart : String := "modernize:"
  /-- How long entries of a remote store are kept; zero keeps them for ever. -/
  ttlSeconds : Nat := 0
  connectTimeoutSeconds : Nat := 5
  deriving DecidableEq, Inhabited

/-- What is odd about the settings. -/
def Settings.warnings (s : Settings) : Log :=
  (if s.backend = .remote ∧ !"redis://".toList.isPrefixOf s.address.toList then
    [.warn ("tools.structural_cache.redis_url \x60" ++ s.address ++
      "\x60 does not look like a redis:// URL")] else []) ++
  (if s.backend = .none then
    [.info "Structural caching is disabled; every file will be converted"] else [])

/-- What a server of values has for the keys of a cache, and the operations that it refuses. -/
structure Server where
  values : Table String ByteArray := ∅
  refused : List Call := []

/-- Opens the store that is asked for. -/
def openStore (backend : Backend) (server : Except StoreError Server) (stateDirectory : Path)
    (files : Files) : Except StoreError Store × Files :=
  match backend with
  | .directory => Store.openDirectory files (stateDirectory.join "cache")
  | .memory => (.ok Store.memory, files)
  | .remote => (server.map fun s => Store.remote s.values s.refused, files)
  | .none => (.error (.unavailable "caching disabled"), files)

/-- Opens the cache of a state directory. -/
def openIn (backend : Backend) (server : Except StoreError Server) (stateDirectory : Path)
    (files : Files) : Cache × Files × Log :=
  match openStore backend server stateDirectory files with
  | (.ok store, files) =>
    ({ store := .ok store }, files, [.info ("Structural cache backend: " ++ store.name)])
  | (.error e, files) => ({ store := .error e.message }, files, [])

/-- The key of a file in the store. -/
def entryKey (path : Path) : String := "entry:" ++ path.text

/-- The cache after a failure of its store; only the first one is reported. -/
def reportFailure (c : Cache) (e : StoreError) : Cache × Log :=
  match c.failure with
  | some _ => (c, [])
  | none =>
    let text := "structural cache store failed (" ++ e.message ++ "); treating files as changed"
    ({ c with failure := some text }, [.warn text])

/-- Problems that concern the whole run. -/
def warnings (c : Cache) : List String :=
  (match c.store with
    | .ok _ => []
    | .error reason =>
      ["structural cache unavailable (" ++ reason ++ "); converting every file"]) ++
  c.failure.toList

/-- Whether there is a store. -/
def isAvailable (c : Cache) : Bool := c.store.toOption.isSome

/-- The entry of a file. -/
def load (c : Cache) (files : Files) (path : Path) : Option Entry × Cache × Log :=
  match c.store with
  | .error _ => (none, c, [])
  | .ok store =>
    match store.get files (entryKey path) with
    | .error e => (none, c.reportFailure e)
    | .ok none => (none, c, [])
    | .ok (some bytes) =>
      match Entry.decode? bytes with
      | some entry => (some entry, c, [])
      | none => (none, c, [.warn (StoreError.corrupt (entryKey path) "not an entry").message])

/-- An entry, provided that it is about content with a digest. -/
def matching (digest : Digest) (entry : Option Entry) : Option Entry :=
  entry.filter fun e => e.digest = digest

/-- Whether content differs from what is remembered about a file. -/
def isStale (c : Cache) (files : Files) (path : Path) (content : ByteArray) : Bool × Cache × Log :=
  if c.force then (true, c, [])
  else
    let (entry, c, log) := c.load files path
    ((matching (Digest.ofBytes content) entry).isNone, c, log)

/-- The outline remembered for a file with content of a digest. -/
def outline? (c : Cache) (files : Files) (path : Path) (digest : Digest) :
    Option Outline × Cache × Log :=
  let (entry, c, log) := c.load files path
  ((matching digest entry).bind (·.outline), c, log)

/-- The cache with a look-up counted. -/
def count (c : Cache) (found : Bool) : Cache :=
  if found then { c with hits := c.hits + 1 } else { c with misses := c.misses + 1 }

/-- The translation remembered for a file with content of a digest.  The look-up is counted. -/
def translation? (c : Cache) (files : Files) (path : Path) (digest : Digest) :
    Option Translation × Cache × Log :=
  if c.force then (none, c.count false, [])
  else
    let (entry, c, log) := c.load files path
    let translation := (matching digest entry).bind (·.translation)
    (translation, c.count translation.isSome, log)

/-- The cache and the files with the entry of a file changed.  What was remembered about other
content is forgotten. -/
def update (c : Cache) (files : Files) (path : Path) (digest : Digest) (change : Entry → Entry) :
    Cache × Files × Log :=
  match c.store with
  | .error _ => (c, files, [])
  | .ok store =>
    let (entry, c, log) := c.load files path
    let entry := change ((matching digest entry).getD { digest })
    match store.set files (entryKey path) { entry with time := c.now }.encode with
    | .ok (store, files) => ({ c with store := .ok store }, files, log)
    | .error e =>
      let (c, more) := c.reportFailure e
      (c, files, log ++ more)

/-- Remembers the outline of a file with content of a digest. -/
def putOutline (c : Cache) (files : Files) (path : Path) (digest : Digest) (outline : Outline) :
    Cache × Files × Log :=
  c.update files path digest fun e => { e with outline := some outline }

/-- Remembers the translation of a file with content of a digest. -/
def putTranslation (c : Cache) (files : Files) (path : Path) (digest : Digest)
    (translation : Translation) : Cache × Files × Log :=
  c.update files path digest fun e => { e with translation := some translation }

/-- Forgets a file. -/
def clearFile (c : Cache) (files : Files) (path : Path) : Cache × Files × Log :=
  match c.store with
  | .error _ => (c, files, [])
  | .ok store =>
    match store.delete files (entryKey path) with
    | .ok (store, files) => ({ c with store := .ok store }, files, [])
    | .error e =>
      let (c, log) := c.reportFailure e
      (c, files, log)

/-- Forgets everything, and tells how many entries there were. -/
def clear (c : Cache) (files : Files) : Nat × Cache × Files × Log :=
  match c.store with
  | .error _ => (0, c, files, [])
  | .ok store =>
    match store.clear files with
    | (.ok n, store, files) => (n, { c with store := .ok store }, files, [])
    | (.error e, store, files) =>
      let (c, log) := { c with store := .ok store }.reportFailure e
      (0, c, files, log)

/-- Figures about a cache. -/
structure Stats where
  backend : String
  available : Bool
  /-- The number of entries, if the store could be asked. -/
  entries : Option Nat
  hits : Nat
  misses : Nat
  deriving DecidableEq

/-- The figures of the cache. -/
def stats (c : Cache) (files : Files) : Stats :=
  match c.store with
  | .ok store => ⟨store.name, true, (store.size files).toOption, c.hits, c.misses⟩
  | .error _ => ⟨"unavailable", false, none, c.hits, c.misses⟩

end Cache

end Recast
