/-
  Cache/Store.lean --- stores of values by key: in memory, or with a file for each key.

  A store in memory keeps its values itself; a store on files keeps them in the file tree, which is
  handed to every operation.  A store may refuse operations.  What a store holds is `held?`; a
  value that was put is held, and the other keys keep theirs (`held?_memory_put`).
-/
import Recast.Digest
import Recast.Files.Tree

set_option autoImplicit false

namespace Recast.Cache

/-- The operations of a store. -/
inductive Call where
  | get
  | set
  | delete
  | clear
  | size
  deriving DecidableEq

namespace Call

/-- The name of an operation. -/
def label : Call → String
  | get => "get"
  | set => "set"
  | delete => "delete"
  | clear => "clear"
  | size => "len"

/-- The operation with a name. -/
def ofLabel? (s : String) : Option Call :=
  [get, set, delete, clear, size].find? fun call => call.label == s

end Call

/-- Why an operation of a store failed. -/
inductive StoreError where
  | unavailable (reason : String)
  | file (error : FileError)
  | server (reason : String)
  | corrupt (key reason : String)
  deriving DecidableEq

/-- The wording of the error. -/
def StoreError.message : StoreError → String
  | .unavailable reason => "store unavailable: " ++ reason
  | .file e => "store I/O error: " ++ e.message
  | .server reason => "redis error: " ++ reason
  | .corrupt key reason => "corrupt cache entry " ++ key ++ ": " ++ reason

/-- Where a store keeps its values. -/
inductive Medium where
  | memory (values : Table String ByteArray)
  | directory (path : Path)

/-- A store. -/
structure Store where
  name : String
  medium : Medium
  /-- The operations that the store refuses. -/
  refused : List Call := []

namespace Store

/-- A store in memory without values. -/
def memory : Store := { name := "memory", medium := .memory ∅ }

/-- A store in memory that others may make refuse operations. -/
def shared : Store := { name := "shared", medium := .memory ∅ }

/-- A store on a server, with the values that the server keeps and the operations that it refuses. -/
def remote (values : Table String ByteArray) (refused : List Call) : Store :=
  { name := "redis", medium := .memory values, refused }

/-- A store with a file for each key in a directory, which is made if it is missing. -/
def openDirectory (files : Files) (path : Path) : Except StoreError Store × Files :=
  let (made, files) := files.makeDirectories path
  (match made with
    | .ok () => .ok { name := "dir", medium := .directory path }
    | .error e => .error (.file e), files)

/-- The file of a key. -/
def keyPath (directory : Path) (key : String) : Path :=
  directory.join (RawText.ofString ((Digest.ofString key).hex ++ ".json"))

/-- Nothing, unless the store refuses the operation. -/
def permit (s : Store) (call : Call) : Except StoreError Unit :=
  if s.refused.contains call then .error (.unavailable (call.label ++ " refused")) else .ok ()

/-- An outcome of a file operation in terms of the store. -/
def onFile {α : Type} (result : Except FileError α) : Except StoreError α :=
  result.mapError .file

/-- The value that the medium holds for a key. -/
def held? (s : Store) (files : Files) (key : String) : Except StoreError (Option ByteArray) :=
  match s.medium with
  | .memory values => .ok (values.get? key)
  | .directory path =>
    match files.read (keyPath path key) with
    | .ok content => .ok (some content)
    | .error .notFound => .ok none
    | .error e => .error (.file e)

/-- The value of a key. -/
def get (s : Store) (files : Files) (key : String) : Except StoreError (Option ByteArray) := do
  s.permit .get
  s.held? files key

/-- The store and the files with a value put into the medium. -/
def put (s : Store) (files : Files) (key : String) (value : ByteArray) :
    Except StoreError (Store × Files) :=
  match s.medium with
  | .memory values => .ok ({ s with medium := .memory (values.insert key value) }, files)
  | .directory path => onFile do
    files.requireDirectory path
    return (s, ← files.replace (keyPath path key) value)

/-- The store and the files with the value of a key replaced. -/
def set (s : Store) (files : Files) (key : String) (value : ByteArray) :
    Except StoreError (Store × Files) := do
  s.permit .set
  s.put files key value

/-- The store and the files without the value of a key. -/
def delete (s : Store) (files : Files) (key : String) : Except StoreError (Store × Files) := do
  s.permit .delete
  match s.medium with
  | .memory values => return ({ s with medium := .memory (values.erase key) }, files)
  | .directory path =>
    match files.removeFile (keyPath path key) with
    | .ok files => return (s, files)
    | .error .notFound => return (s, files)
    | .error e => .error (.file e)

/-- The files of the values in a directory. -/
def valueFiles (files : Files) (directory : Path) : Except StoreError (List Path) := do
  let names ← onFile (files.list directory)
  return (names.map directory.join).filter fun p => p.extension? == some (RawText.ofString "json")

/-- The files without those of a list, up to the first that cannot be removed. -/
def removeAll (files : Files) : List Path → Except StoreError Unit × Files
  | [] => (.ok (), files)
  | p :: rest =>
    match files.removeFile p with
    | .ok files => removeAll files rest
    | .error e => (.error (.file e), files)

/-- The number of values removed, and the store and the files without them. -/
def clear (s : Store) (files : Files) : Except StoreError Nat × Store × Files :=
  match s.permit .clear with
  | .error e => (.error e, s, files)
  | .ok () =>
    match s.medium with
    | .memory values => (.ok values.size, { s with medium := .memory ∅ }, files)
    | .directory path =>
      match valueFiles files path with
      | .error e => (.error e, s, files)
      | .ok paths =>
        let (result, files) := removeAll files paths
        (result.map fun () => paths.length, s, files)

/-- The number of values held. -/
def size (s : Store) (files : Files) : Except StoreError Nat := do
  s.permit .size
  match s.medium with
  | .memory values => return values.size
  | .directory path => return (← valueFiles files path).length

/-! ## Laws -/

/-- A value put into memory is held, and the other keys keep theirs. -/
theorem held?_memory_put (name : String) (refused : List Call) (values : Table String ByteArray)
    (files : Files) (key other : String) (value : ByteArray) :
    ∃ s, (Store.mk name (.memory values) refused).put files key value = .ok (s, files) ∧
      s.held? files other = .ok (if other = key then some value else values.get? other) := by
  refine ⟨_, rfl, ?_⟩
  simp only [held?, Table.get?_insert]

end Store

end Recast.Cache
