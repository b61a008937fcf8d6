/-
  Scan.lean --- finding the source files below an input path.

  Directories for compiled files and hidden directories are passed over.  A file above the size
  limit is skipped; a file that does not parse is found and marked.
-/
import Recast.Files.Tree
import Recast.Log
import Recast.Outline.OfText
import Recast.SourceFile

set_option autoImplicit false

namespace Recast.Scan

/-- The settings of the scan. -/
structure Settings where
  /-- The size in bytes above which a file is skipped. -/
  maxSize : Nat := 10 * 1024 * 1024
  deriving DecidableEq, Inhabited

/-- What is odd about the settings. -/
def Settings.warnings (s : Settings) : Log :=
  if s.maxSize = 0 then
    [.warn "tools.scan_source.max_file_size_bytes is 0; every file will be skipped"]
  else []

/-- Why there is nothing to translate. -/
inductive ScanError where
  | inputNotFound (path : Path)
  | noFiles (path : Path)
  deriving DecidableEq

/-- The wording of the error. -/
def ScanError.message : ScanError → String
  | .inputNotFound path => "input path " ++ path.text ++ " does not exist"
  | .noFiles path => "no Python files found under " ++ path.text

/-- A file that is not translated. -/
structure Skipped where
  path : Path
  reason : String
  deriving DecidableEq

/-- The outcome of a scan. -/
structure Result where
  files : List SourceFile := []
  skipped : List Skipped := []

/-- Whether a path has the extension of source files. -/
def isSource (p : Path) : Bool := p.extension? == some (RawText.ofString "py")

/-- Whether a directory with a name is passed over. -/
def isIgnored (name : RawText) : Bool :=
  name.text == "__pycache__" || name.text.toList.head? == some '.'

/-- The path of names below a directory. -/
def pathBelow (root : Path) (names : List RawText) : Path := names.foldl Path.join root

/-- The source files below a directory, in order. -/
def discover (files : Files) (root : Path) (place : List RawText) : List Path :=
  (files.below place).filterMap fun (names, node) =>
    match node with
    | .directory => none
    | .file _ =>
      let path := pathBelow root names
      if isSource path && !names.dropLast.any isIgnored then some path else none

/-- The source files of an input, which is a file or a directory. -/
def candidates (files : Files) (input : Path) : Except ScanError (List Path) :=
  match files.find input with
  | .error _ => .error (.inputNotFound input)
  | .ok (_, .file _) => .ok (if isSource input then [input] else [])
  | .ok (place, .directory) => .ok (discover files input place)

/-- A file as it is found, or why it is skipped, with the messages about it. -/
def inspect (s : Settings) (files : Files) (path : Path) : Except String SourceFile × Log :=
  match files.canonical path, files.read path with
  | .ok full, .ok content =>
    if content.size > s.maxSize then
      (.error ("file is " ++ toString content.size ++ " bytes, above the " ++ toString s.maxSize ++
        " byte limit"), [])
    else
      let file : SourceFile := ⟨full, content, none⟩
      match Outline.ofBytes content with
      | .ok _ => (.ok file, [])
      | .error e =>
        (.ok (file.markBroken e.message), [.warn (path.text ++ " does not parse: " ++ e.message)])
  | .error e, _ => (.error e.message, [])
  | _, .error e => (.error e.message, [])

/-- The outcome with one more path inspected. -/
def add (s : Settings) (files : Files) (result : Result × Log) (path : Path) : Result × Log :=
  match inspect s files path with
  | (.ok file, log) => ({ result.1 with files := result.1.files ++ [file] }, result.2 ++ log)
  | (.error reason, log) =>
    ({ result.1 with skipped := result.1.skipped ++ [⟨path, reason⟩] },
      result.2 ++ log ++ [.warn ("Skipping " ++ path.text ++ ": " ++ reason)])

/-- The files that do not parse. -/
def Result.broken (r : Result) : List SourceFile := r.files.filter fun f => !f.parses

/-- Finds the source files of an input. -/
def scan (s : Settings) (files : Files) (input : Path) : Except ScanError (Result × Log) :=
  match candidates files input with
  | .error e => .error e
  | .ok [] => .error (.noFiles input)
  | .ok paths =>
    let (result, log) := paths.foldl (add s files) ({}, [])
    .ok (result, log ++ [.info ("Discovered " ++ toString result.files.length ++
      " Python files (" ++ toString result.skipped.length ++ " skipped, " ++
      toString result.broken.length ++ " unparseable)")])

end Recast.Scan
