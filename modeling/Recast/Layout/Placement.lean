/-
  Layout/Placement.lean --- a Go file of its own for every source file.

  A file keeps its plain name unless another one would get the same.  Files that collide take as
  many of their innermost directory names in front as it needs to tell them apart, and what still
  collides gets a number, in the order of the paths.
-/
import Recast.Layout.Rules
import Recast.Table

set_option autoImplicit false

namespace Recast.Layout

/-- Where the translation of a file goes. -/
structure Placement where
  module : String
  fileName : String
  deriving DecidableEq, Inhabited

/-- A directory name in characters that suit a Go file name. -/
def sanitized (name : String) : String :=
  String.ofList (trimUnderscores (name.toList.map fun c =>
    if Text.isAsciiLetter c || Text.isAsciiDigit c then c else '_'))

/-- The directory names of a path, outermost first. -/
def directoryNames (p : Path) : List String :=
  (p.parentComponents.filterMap fun c =>
    match c with
    | .normal name => some (sanitized name.text)
    | _ => none).filter (· != "")

/-- A stem behind the innermost directory names. -/
def prefixed (stem : String) (directories : List String) (depth : Nat) : String :=
  "_".intercalate (directories.drop (directories.length - depth) ++ [stem])

/-- The names of colliding files: with the fewest directory names that tell them apart, or with all
directory names if none do. -/
def separated (stem : String) (directories : List (List String)) : List String :=
  let deepest := max 1 ((directories.map List.length).foldl max 0)
  let names (depth : Nat) : List String := directories.map fun d => prefixed stem d depth
  match (List.range deepest).find? fun i =>
      (names (i + 1)).eraseDups.length = directories.length with
  | some i => names (i + 1)
  | none => names deepest

/-- A source file on its way to its place. -/
structure Candidate where
  /-- The position among the sources. -/
  index : Nat
  path : Path
  module : String
  stem : String
  /-- Whether the stem is not the plain one. -/
  renamed : Bool

/-- The sources with their plain targets. -/
def plainCandidates (s : Settings) (sources : List Path) : List Candidate :=
  sources.mapIdx fun i p => ⟨i, p, s.classify p.fileName, goStem p.fileName, false⟩

/-- Whether two candidates go for the same target. -/
def Candidate.collides (a b : Candidate) : Bool := a.module == b.module && a.stem == b.stem

/-- A candidate with the stem that tells it apart from the others with the same target. -/
def separate (all : List Candidate) (c : Candidate) : Candidate :=
  let group := all.filter c.collides
  if group.length ≤ 1 then c
  else
    let names := separated c.stem (group.map fun m => directoryNames m.path)
    match (group.zip names).find? fun (m, _) => m.index = c.index with
    | some (_, name) => { c with stem := name, renamed := name != c.stem }
    | none => c

/-- The order in which names are given: files with plain names first, then by path. -/
def Candidate.before (a b : Candidate) : Bool :=
  if a.renamed = b.renamed then a.path.le b.path else !a.renamed

/-- The first of a stem and its numbered variants whose file is free, and whether it is numbered. -/
def freeFile (taken : List (String × String)) (module stem : String) : String × Bool :=
  let numbered := (List.range taken.length).map fun i =>
    (withExtension (stem ++ "_" ++ toString (i + 2)), true)
  (((withExtension stem, false) :: numbered).find? fun (f, _) => !taken.contains (module, f)).getD
    (withExtension stem, false)

/-- The files that candidates get one after the other, with the messages about it. -/
def claim : List (String × String) → List Candidate → List (Nat × Placement) × Log
  | _, [] => ([], [])
  | taken, c :: rest =>
    let (file, numbered) := freeFile taken c.module c.stem
    let (others, log) := claim ((c.module, file) :: taken) rest
    let remark := if c.renamed || numbered then
        [.info (c.path.text ++ " shares its name with another input; writing it as " ++ c.module ++
          "/" ++ file)]
      else []
    ((c.index, ⟨c.module, file⟩) :: others, remark ++ log)

/-- The placements of source files, in their order, with the messages about it. -/
def place (s : Settings) (sources : List Path) : List Placement × Log :=
  let plain := plainCandidates s sources
  let (claimed, log) := claim [] ((plain.map (separate plain)).mergeSort Candidate.before)
  ((claimed.mergeSort fun a b => a.1 ≤ b.1).map (·.2), log)

end Recast.Layout
