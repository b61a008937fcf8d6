/-
  Meaning/Index.lean --- the index of meanings: a record for every file, function, class and
  imported module, found again by what they mean.

  The index only enriches prompts.  It is never asked whether a file has to be translated.
-/
import Recast.Meaning.Snapshot
import Recast.Meaning.Text

set_option autoImplicit false

namespace Recast.Meaning

/-- A way to turn texts into vectors. -/
structure Embedder where
  name : String
  embed : String → Except String Vector

/-- The embedder that counts words at places picked by their digests. -/
def Embedder.hashing (dimension : Nat) : Embedder :=
  ⟨embeddingName dimension, fun text => .ok (Meaning.embed dimension text)⟩

/-- An embedder that asks a server. -/
def Embedder.remote (model : String) (ask : String → Except String Vector) : Embedder :=
  ⟨"ollama-" ++ model, ask⟩

/-- The kinds of embedders that can be asked for. -/
inductive EmbedderKind where
  | hashing
  | remote
  deriving DecidableEq, Inhabited

/-- All kinds of embedders. -/
def EmbedderKind.all : List EmbedderKind := [.hashing, .remote]

/-- The name of a kind of embedder. -/
def EmbedderKind.label : EmbedderKind → String
  | .hashing => "hashing"
  | .remote => "ollama"

/-- The kind of embedder with a name. -/
def EmbedderKind.ofLabel? (s : String) : Option EmbedderKind := all.find? fun k => k.label == s

theorem EmbedderKind.ofLabel?_label (k : EmbedderKind) : ofLabel? k.label = some k := by
  cases k <;> decide

/-- The settings of the index. -/
structure IndexSettings where
  enabled : Bool := true
  embedder : EmbedderKind := .hashing
  /-- The length of the vectors of the hashing embedder. -/
  dimension : Nat := 256
  /-- The address of the server of a remote embedder. -/
  address : String := "http://127.0.0.1:11434"
  /-- The model of a remote embedder. -/
  model : String := "nomic-embed-text"
  timeoutSeconds : Nat := 30
  /-- Whether the index is kept in a file between runs. -/
  persist : Bool := true
  deriving DecidableEq, Inhabited

/-- What is odd about the settings. -/
def IndexSettings.warnings (s : IndexSettings) : Log :=
  if s.embedder = .hashing ∧ s.dimension = 0 then
    [.warn ("tools.semantic_index.dimension is 0; using 1, which makes every search result " ++
      "equally related")]
  else []

/-- The index. -/
structure Index where
  /-- Whether records are kept and found at all. -/
  enabled : Bool
  embedder : Embedder
  records : Records
  /-- The file that the index is kept in. -/
  file : Option Path := none

namespace Index

/-- An index that keeps and finds nothing. -/
def disabled : Index :=
  let embedder := Embedder.hashing 1
  { enabled := false, embedder, records := { space := embedder.name } }

/-- The name of the file that an index is kept in. -/
def fileName : String := "semantic_index.json"

/-- The embedder that settings ask for.  One that asks a server needs a client, and without one words
are counted. -/
def embedderOf (s : IndexSettings) (client : Except String (String → Except String Vector)) :
    Embedder × Log :=
  match s.embedder, client with
  | .hashing, _ => (.hashing s.dimension, [])
  | .remote, .ok ask => (.remote s.model ask, [])
  | .remote, .error reason => (.hashing s.dimension,
      [.warn ("Cannot use Ollama embeddings (" ++ reason ++ "); falling back to hashing")])

/-- Opens the index of a state directory. -/
def openIn (s : IndexSettings) (client : Except String (String → Except String Vector))
    (stateDirectory : Path) (files : Files) : Index × Log :=
  if !s.enabled then (disabled, [])
  else
    let (embedder, log₁) := embedderOf s client
    let path := stateDirectory.join fileName
    let (records, log₂) :=
      if s.persist then Records.load files path embedder.name else ({ space := embedder.name }, [])
    ({ enabled := true, embedder, records, file := if s.persist then some path else none },
      log₁ ++ log₂ ++ [.info ("Semantic index using " ++ embedder.name ++ " embeddings")])

/-- The key of a record. -/
def recordKey (subject : Subject) (path : Path) (name : String) : String :=
  (Digest.ofString (subject.tag ++ "\x00" ++ path.text ++ "\x00" ++ name)).hex

/-- The index with a record put, which replaces that of the same subject, file and name. -/
def put (ix : Index) (subject : Subject) (path : Path) (name : Option String) (meaning : String)
    (metadata : Table String String) : Except IndexError Index :=
  if !ix.enabled then .ok ix
  else
    match ix.embedder.embed meaning with
    | .error reason => .error (.embedding reason)
    | .ok vector =>
      let record : Record := ⟨vector, ⟨meaning, subject, path, name, metadata⟩⟩
      match ix.records.put (recordKey subject path (name.getD "")) record with
      | .ok records => .ok { ix with records }
      | .error expected => .error (.dimension expected vector.length)

/-- A record to be put. -/
structure Draft where
  subject : Subject
  name : Option String
  meaning : String
  metadata : Table String String

/-- The index with records of a file put, up to the first that fails. -/
def putAll (path : Path) : Index → List Draft → Except IndexError Unit × Index
  | ix, [] => (.ok (), ix)
  | ix, d :: rest =>
    match ix.put d.subject path d.name d.meaning d.metadata with
    | .ok ix => putAll path ix rest
    | .error e => (.error e, ix)

/-- The records that an outline of a file gives. -/
def drafts (stem : String) (o : Outline) : List Draft :=
  ⟨.file, none, ofFile stem o, .ofList [("domain", domain stem o)]⟩ ::
  o.functions.map (fun f => ⟨.function, some f.qualifiedName, ofFunction f,
    .ofList [("qualified_name", f.qualifiedName), ("line", toString f.startLine)]⟩) ++
  o.classes.map (fun c => ⟨.function, some ("class_" ++ c.name), ofClass c,
    .ofList [("line", toString c.line)]⟩) ++
  (relations stem o).map fun (module, meaning) => ⟨.relation, some module, meaning, ∅⟩

/-- The numbers of records that were put for a file. -/
structure Summary where
  files : Nat := 0
  functions : Nat := 0
  classes : Nat := 0
  relations : Nat := 0
  deriving DecidableEq

/-- The index without the records of a file, and how many there were. -/
def removeFile (ix : Index) (path : Path) : Nat × Index :=
  let records := ix.records.eraseSource path
  (ix.records.size - records.size, { ix with records })

/-- The index with the records of a file replaced by those that its outline gives. -/
def addOutline (ix : Index) (path : Path) (stem : String) (o : Outline) :
    Except IndexError Summary × Index :=
  if !ix.enabled then (.ok {}, ix)
  else
    let (result, ix) := putAll path (ix.removeFile path).2 (drafts stem o)
    (result.map fun () =>
      ⟨1, o.functions.length, o.classes.length, (Meaning.relations stem o).length⟩, ix)

/-- The index without the records of files that are not to be kept, and how many there were. -/
def prune (ix : Index) (keep : List Path) : Nat × Index :=
  ix.records.sources.foldl (fun (n, ix) path =>
    if keep.any path.same then (n, ix)
    else
      let (m, ix) := ix.removeFile path
      (n + m, ix)) (0, ix)

/-- What a record says about a place. -/
def Scored.toMatch (s : Scored) : Match :=
  ⟨s.payload.meaning, s.score, s.payload.subject, s.payload.sourcePath, s.payload.name⟩

/-- The places whose meanings are closest to a text, the closest first. -/
def search (ix : Index) (text : String) (count : Nat) (scope : Scope) :
    Except IndexError (List Match) :=
  if !ix.enabled || count = 0 then .ok []
  else
    match ix.embedder.embed text with
    | .error reason => .error (.embedding reason)
    | .ok vector => .ok ((ix.records.query vector count scope).map Scored.toMatch)

/-- The places in other files whose meanings are closest to a text.  A search that fails finds
nothing. -/
def related (ix : Index) (path : Path) (text : String) (count : Nat) : List Match × Log :=
  match ix.search text count { excluded := some path } with
  | .ok found => (found, [])
  | .error e => ([], [.warn ("Semantic search for " ++ path.text ++ " failed: " ++ e.message)])

/-- The meaning of a file. -/
def fileMeaning? (ix : Index) (path : Path) : Option String :=
  (ix.records.get? (recordKey .file path "")).map (·.meaning)

/-- Figures about an index. -/
structure Stats where
  embedder : String
  files : Nat
  functions : Nat
  relations : Nat
  deriving DecidableEq

/-- The figures of the index. -/
def stats (ix : Index) : Stats :=
  ⟨ix.embedder.name, ix.records.count .file, ix.records.count .function, ix.records.count .relation⟩

/-- The index without records, and how many there were. -/
def clear (ix : Index) : Nat × Index := (ix.records.size, { ix with records := ix.records.clear })

/-- Saves the index, if it is to be kept. -/
def flush (ix : Index) (files : Files) : Except IndexError Unit × Files :=
  match ix.file with
  | none => (.ok (), files)
  | some path => ix.records.save files path

end Index

end Recast.Meaning
