/-
  Files/Tree.lean --- a tree of files and directories as a value.

  A place in the tree is the list of the names that lead to it.  The root is always a directory.
  A path is followed name by name, and everything on the way has to be a directory.
-/
import Recast.Files.Error
import Recast.Path
import Recast.Table

set_option autoImplicit false

namespace Recast

/-- What is found at a place. -/
inductive Files.Node where
  | file (content : ByteArray)
  | directory
  deriving DecidableEq

/-- A tree of files. -/
structure Files where
  /-- What is at the places below the root. -/
  nodes : Table (List RawText) Files.Node := ∅
  /-- The place that relative paths start from. -/
  here : List RawText := []

namespace Files

/-- What is at a place. -/
def node? (f : Files) (place : List RawText) : Option Node :=
  if place = [] then some .directory else f.nodes.get? place

/-- The tree with something put at a place. -/
def put (f : Files) (place : List RawText) (node : Node) : Files :=
  { f with nodes := f.nodes.insert place node }

theorem node?_put (f : Files) {place : List RawText} (h : place ≠ []) (node : Node)
    (other : List RawText) :
    (f.put place node).node? other = if other = place then some node else f.node? other := by
  unfold node? put
  by_cases hr : other = []
  · subst hr; simp [h.symm]
  · simp only [hr, if_false, Table.get?_insert]

/-! ## Following a path -/

/-- The longest name in bytes that a place can have. -/
def maxNameSize : Nat := 255

/-- The place reached from a place by the components of a path. -/
def follow (f : Files) : List RawText → List Path.Component → Except FileError (List RawText)
  | place, [] => .ok place
  | place, c :: rest =>
    match f.node? place with
    | none => .error .notFound
    | some (.file _) => .error .notADirectory
    | some .directory =>
      match c with
      | .root => f.follow [] rest
      | .current => f.follow place rest
      | .up => f.follow place.dropLast rest
      | .normal name =>
        if name.bytes.length > maxNameSize then .error .nameTooLong
        else f.follow (place ++ [name]) rest

/-- Whether a path ends in a slash or a dot and so can name nothing but a directory. -/
def namesDirectory (p : Path) : Bool :=
  p.raw.pieces.getLast?.any fun piece : RawText => piece == "" || piece == "."

/-- The place that a path names, whether or not anything is there. -/
def target (f : Files) (p : Path) : Except FileError (List RawText) :=
  if p.raw = "" then .error .notFound
  else f.follow (if p.isAbsolute then [] else f.here) p.components

/-- The place and the node that a path leads to. -/
def find (f : Files) (p : Path) : Except FileError (List RawText × Node) := do
  let place ← f.target p
  match f.node? place with
  | none => .error .notFound
  | some .directory => return (place, .directory)
  | some (.file content) =>
    if namesDirectory p then .error .notADirectory else return (place, .file content)

/-- Whether a path leads anywhere. -/
def exists? (f : Files) (p : Path) : Bool := (f.find p).toOption.isSome

/-- Whether a path leads to a directory. -/
def isDirectory (f : Files) (p : Path) : Bool :=
  match f.find p with
  | .ok (_, .directory) => true
  | _ => false

/-- The content of a file. -/
def read (f : Files) (p : Path) : Except FileError ByteArray := do
  match ← f.find p with
  | (_, .file content) => return content
  | (_, .directory) => .error .isADirectory

/-- The path of a place from the root. -/
def pathOf (place : List RawText) : Path := ⟨"/" ++ RawText.joined place⟩

/-- The path from the root to what a path leads to, without dots. -/
def canonical (f : Files) (p : Path) : Except FileError Path := do
  return pathOf (← f.find p).1

/-- What is below a place, in order, each with the names that lead there from the place. -/
def below (f : Files) (place : List RawText) : List (List RawText × Node) :=
  f.nodes.entries.filterMap fun (names, node) =>
    if place.isPrefixOf names ∧ names.length > place.length then
      some (names.drop place.length, node)
    else none

/-- The names in a directory. -/
def list (f : Files) (p : Path) : Except FileError (List RawText) := do
  match ← f.find p with
  | (place, .directory) =>
    return (f.below place).filterMap fun (names, _) =>
      match names with
      | [name] => some name
      | _ => none
  | (_, .file _) => .error .notADirectory

/-! ## Changing the tree -/

/-- The tree with a new directory. -/
def makeDirectory (f : Files) (p : Path) : Except FileError Files := do
  let place ← f.target p
  if (f.node? place).isSome then .error .exists else return f.put place .directory

/-- Makes a directory, unless it is there. -/
def makeLast (f : Files) (p : Path) : Except FileError Unit × Files :=
  match f.makeDirectory p with
  | .ok f => (.ok (), f)
  | .error e => (if f.isDirectory p then .ok () else .error e, f)

/-- Makes a directory and the directories above it that are missing; the components of the path are
given from the last one to the first. -/
def makeAbove (f : Files) : List Path.Component → Except FileError Unit × Files
  | [] => (.ok (), f)
  | c :: above =>
    let p := Path.ofComponents (c :: above).reverse
    match f.makeDirectory p with
    | .error .notFound =>
      match f.makeAbove above with
      | (.ok (), f) => f.makeLast p
      | failed => failed
    | _ => f.makeLast p

/-- Makes a directory and everything above it.  What was made before a failure stays. -/
def makeDirectories (f : Files) (p : Path) : Except FileError Unit × Files :=
  f.makeAbove p.components.reverse

/-- Makes a directory and then a change, which is made as a whole or not at all. -/
def changeIn {ε : Type} (f : Files) (directory : Path) (fault : FileError → ε)
    (change : Files → Except ε Files) : Except ε Unit × Files :=
  match f.makeDirectories directory with
  | (.error e, f) => (.error (fault e), f)
  | (.ok (), f) =>
    match change f with
    | .ok f => (.ok (), f)
    | .error e => (.error e, f)

/-- The tree with a file written, whether or not it was there. -/
def write (f : Files) (p : Path) (content : ByteArray) : Except FileError Files := do
  let place ← f.target p
  match f.node? place with
  | some .directory => .error .isADirectory
  | _ => if namesDirectory p then .error .isADirectory else return f.put place (.file content)

/-- Whether new files can be put into a directory. -/
def requireDirectory (f : Files) (p : Path) : Except FileError Unit := do
  match ← f.find p with
  | (_, .directory) => return ()
  | (_, .file _) => .error .notADirectory

/-- The tree with a complete file put in the place of whatever file was there. -/
def replace (f : Files) (p : Path) (content : ByteArray) : Except FileError Files := do
  let place ← f.target p
  if namesDirectory p then .error .notADirectory
  else
    match f.node? place with
    | some .directory => .error .isADirectory
    | _ => return f.put place (.file content)

/-- The tree without a file. -/
def removeFile (f : Files) (p : Path) : Except FileError Files := do
  match ← f.find p with
  | (place, .file _) => return { f with nodes := f.nodes.erase place }
  | (_, .directory) => .error .isADirectory

/-- The tree without a place and everything below it. -/
def prune (f : Files) (place : List RawText) : Files :=
  { f with nodes := f.nodes.filter fun names _ => !place.isPrefixOf names }

/-- The tree without a directory and everything in it. -/
def removeTree (f : Files) (p : Path) : Except FileError Files := do
  match ← f.find p with
  | (place, .directory) => return f.prune place
  | (_, .file _) => .error .notADirectory

end Files

end Recast
