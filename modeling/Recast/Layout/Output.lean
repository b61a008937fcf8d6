/-
  Layout/Output.lean --- writing the translated files below an output directory.

  A file is written as a whole or not at all, and one that already holds the wanted content is left
  alone.  Directories that were made before a failure stay.
-/
import Recast.Files.Tree
import Recast.Layout.Placement

set_option autoImplicit false

namespace Recast.Layout

/-- A failure to write. -/
structure WriteError where
  path : Path
  error : FileError
  deriving DecidableEq

/-- The wording of the error. -/
def WriteError.message (e : WriteError) : String :=
  "failed to write " ++ e.path.text ++ ": " ++ e.error.message

/-- The path of a file of a module below the output directory. -/
def targetPath (root : Path) (p : Placement) : Path := (root.join p.module).join p.fileName

/-- An outcome of a file operation on a path. -/
def onPath {α : Type} (path : Path) (result : Except FileError α) : Except WriteError α :=
  result.mapError (WriteError.mk path)

/-- Writes a file of a module. -/
def write (files : Files) (root : Path) (p : Placement) (content : String) :
    Except WriteError Unit × Files :=
  let directory := root.join p.module
  files.changeIn directory (WriteError.mk directory) fun files => do
    onPath directory (files.requireDirectory directory)
    onPath (targetPath root p) (files.replace (targetPath root p) content.toUTF8)

/-- Whether a file already holds a content. -/
def holds (files : Files) (path : Path) (content : String) : Bool :=
  match files.read path with
  | .ok existing => existing == content.toUTF8
  | .error _ => false

/-- Makes a file of a module hold a content, and tells whether it had to be written. -/
def writeIfChanged (files : Files) (root : Path) (p : Placement) (content : String) :
    Except WriteError Bool × Files :=
  if holds files (targetPath root p) content then (.ok false, files)
  else
    let (result, files) := write files root p content
    (result.map fun () => true, files)

/-- Describes the Go module in the output directory, unless there is a description, and tells
whether it was written. -/
def ensureModuleFile (s : Settings) (files : Files) (root : Path) :
    Except WriteError Bool × Files :=
  let path := root.join "go.mod"
  if files.exists? path then (.ok false, files)
  else
    let content := "module " ++ s.goModulePath ++ "\n\ngo 1.21\n"
    let (result, files) := files.changeIn root (WriteError.mk root) fun files =>
      onPath path (files.write path content.toUTF8)
    (result.map fun () => true, files)

end Recast.Layout
