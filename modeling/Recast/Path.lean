/-
  Path.lean --- paths of files: components separated by slashes.

  A path is what the file system keeps, bytes that need not be text.  Empty components and dots inside
  a path mean nothing; a path is compared by its components.
-/
import Recast.Text.Raw

set_option autoImplicit false

namespace Recast

/-- A path as it is written. -/
structure Path where
  raw : RawText
  deriving DecidableEq, Inhabited

/-- A component of a path. -/
inductive Path.Component where
  | root
  | current
  | up
  | normal (name : RawText)
  deriving DecidableEq

namespace Path

/-- The path that a text writes. -/
def ofString (s : String) : Path := ⟨s⟩

/-- The text that a path shows as; different paths may show as the same text. -/
def text (p : Path) : String := p.raw.text

/-- Why a path that is no text cannot be kept in one. -/
def notText : String := "path contains invalid UTF-8 characters"

/-- The components of the pieces of a path behind its first slash. -/
def innerComponents (pieces : List RawText) : List Component :=
  pieces.filterMap fun piece : RawText =>
    if piece = "" ∨ piece = "." then none
    else if piece = ".." then some .up
    else some (.normal piece)

/-- Whether a path begins at the root. -/
def isAbsolute (p : Path) : Bool := p.raw.bytes.head? == some RawText.slash

/-- The components of a path.  A dot counts only in front. -/
def components (p : Path) : List Component :=
  match p.raw.pieces with
  | [] => []
  | first :: rest =>
    if p.isAbsolute then .root :: innerComponents rest
    else if first = "." then .current :: innerComponents rest
    else innerComponents (first :: rest)

/-- A key whose order is that of the components. -/
def Component.key : Component → RawText
  | .root => "0"
  | .current => "1"
  | .up => "2"
  | .normal name => "3" ++ name

/-- A key whose order is that of the paths. -/
def key (p : Path) : List RawText := p.components.map Component.key

/-- Whether a path does not come after another one. -/
def le (a b : Path) : Bool := !decide (b.key < a.key)

/-- Whether two paths have the same components. -/
def same (a b : Path) : Bool := a.components == b.components

/-- The file name, unless the path ends in the root or in dots. -/
def fileName? (p : Path) : Option RawText :=
  match p.components.getLast? with
  | some (.normal name) => some name
  | _ => none

/-- A file name cut at its last dot; a dot in front belongs to the name. -/
def cutName (name : RawText) : RawText × Option RawText :=
  match Text.cutAt? RawText.dot name.bytes.reverse with
  | none => (name, none)
  | some (extension, stem) =>
    if name = ".." ∨ stem.isEmpty then (name, none)
    else (⟨stem.reverse⟩, some ⟨extension.reverse⟩)

/-- The text that the file name shows as; nothing if the path has none. -/
def fileName (p : Path) : String := (p.fileName?.map RawText.text).getD ""

/-- The text that the file name without its extension shows as. -/
def stem (p : Path) : String := (p.fileName?.map fun n => (cutName n).1.text).getD ""

/-- The extension of the file name. -/
def extension? (p : Path) : Option RawText := p.fileName?.bind fun n => (cutName n).2

/-- The components in front of the last one. -/
def parentComponents (p : Path) : List Component := p.components.dropLast

/-- A path below another one; an absolute path stays what it is. -/
def join (p : Path) (below : RawText) : Path :=
  if (Path.mk below).isAbsolute ∨ p.raw = "" then ⟨below⟩
  else if p.raw.bytes.getLast? = some RawText.slash then ⟨p.raw ++ below⟩
  else ⟨p.raw ++ "/" ++ below⟩

/-- What is written for a component. -/
def Component.raw : Component → RawText
  | .root => ""
  | .current => "."
  | .up => ".."
  | .normal name => name

/-- The path of a list of components. -/
def ofComponents : List Component → Path
  | [] => ⟨""⟩
  | [.root] => ⟨"/"⟩
  | cs => ⟨RawText.joined (cs.map Component.raw)⟩

/-- The path in front of the last component. -/
def parent (p : Path) : Path := ofComponents p.parentComponents

/-- The path that leads from a directory to a path below it. -/
def relativeTo? (base p : Path) : Option Path :=
  let cs := p.components
  let bs := base.components
  if bs.isPrefixOf cs then some (ofComponents (cs.drop bs.length)) else none

end Path

end Recast
