/-
  Meaning/Snapshot.lean --- collections of records as JSON texts in files.

  A file that cannot be read, or that holds vectors of another kind, counts as an empty collection.
  A collection about a path that is no text cannot be kept.
-/
import Recast.Decimal.Shortest
import Recast.Files.Tree
import Recast.Json.Printer
import Recast.Json.Reader
import Recast.Json.Record
import Recast.Log
import Recast.Meaning.Records
import Recast.Text.Utf8

set_option autoImplicit false

namespace Recast.Meaning

/-- Why an operation of the index failed. -/
inductive IndexError where
  | embedding (reason : String)
  | dimension (expected actual : Nat)
  | file (error : FileError)
  | encoding (reason : String)
  deriving DecidableEq

/-- The wording of the error. -/
def IndexError.message : IndexError → String
  | .embedding reason => reason
  | .dimension expected actual =>
    "vector has " ++ toString actual ++ " dimensions, index holds " ++ toString expected
  | .file e => "semantic index I/O error: " ++ e.message
  | .encoding reason => "semantic index serialization error: " ++ reason

namespace Subject

/-- The subject that a JSON value names. -/
def ofJson? : Json → Option Subject
  | .string s => ofLabel? s
  | .object [(s, .null)] => ofLabel? s
  | _ => none

end Subject

/-- A component of a vector as JSON; what is no finite number is lost. -/
def componentJson (x : Float32) : Json :=
  if x.isFinite then .number (.real x.toFloat) else .null

/-- The component of a vector that a JSON number gives. -/
def component? : Json → Option Float32
  | .number (.whole n) =>
    let bits := (Decimal.nearest Decimal.single n.natAbs 1).toUInt32
    some (if n < 0 then -Float32.ofBits bits else Float32.ofBits bits)
  | .number (.real v) => if v.isFinite then some v.toFloat32 else none
  | _ => none

namespace Payload

/-- What a record says, as JSON. -/
def toJson (p : Payload) : Json := .object
  [("meaning", p.meaning), ("subject", p.subject.label), ("source_path", p.sourcePath.text),
   ("name", .ofOption .string p.name),
   ("metadata", .object (p.metadata.entries.map fun (k, v) => (k, .string v)))]

/-- What a JSON value says about a record. -/
def ofJson? (j : Json) : Option Payload := do
  let fields : List Json.Field :=
    [⟨"meaning", .refused⟩, ⟨"subject", .refused⟩, ⟨"source_path", .refused⟩, ⟨"name", .null⟩,
     ⟨"metadata", .default⟩]
  match ← j.record? fields with
  | [some meaning, some subject, some path, name, metadata] =>
    return {
      meaning := ← meaning.string?
      subject := ← Subject.ofJson? subject
      sourcePath := ⟨← path.string?⟩
      name := ← Json.optional? Json.string? name
      metadata := ← match metadata with
        | some m => m.tableOf? Json.string?
        | none => some ∅ }
  | _ => none

end Payload

namespace Record

/-- A record as JSON. -/
def toJson (r : Record) : Json := .object
  [("vector", .ofList componentJson r.vector), ("payload", r.payload.toJson)]

/-- The record that a JSON value gives. -/
def ofJson? (j : Json) : Option Record := do
  match ← j.record? [⟨"vector", .refused⟩, ⟨"payload", .refused⟩] with
  | [some vector, some payload] =>
    return { vector := ← vector.listOf? component?, payload := ← Payload.ofJson? payload }
  | _ => none

end Record

namespace Records

/-- A collection as JSON. -/
def toJson (r : Records) : Json := .object
  [("embedder", r.space), ("points", .object (r.items.entries.map fun (k, v) => (k, v.toJson)))]

/-- The collection that a JSON value gives. -/
def ofJson? (j : Json) : Option Records := do
  match ← j.record? [⟨"embedder", .refused⟩, ⟨"points", .refused⟩] with
  | [some space, some items] =>
    return { space := ← space.string?, items := ← items.tableOf? Record.ofJson? }
  | _ => none

/-- Whether the paths of all records are text. -/
def isText (r : Records) : Bool :=
  r.items.values.all fun record => record.payload.sourcePath.raw.isText

/-- The bytes that a collection is kept as. -/
def encode (r : Records) : ByteArray := (r.toJson.render Decimal.render).toUTF8

/-- The collection that bytes keep. -/
def decode? (bytes : ByteArray) : Option Records := do
  ofJson? (← Json.parse? (← Text.Utf8.decode? bytes))

/-- The collection kept in a file, if it is one of vectors of the given kind. -/
def load (files : Files) (path : Path) (space : String) : Records × Log :=
  match files.read path with
  | .error _ => ({ space }, [])
  | .ok bytes =>
    match decode? bytes with
    | none =>
      ({ space }, [.warn ("Ignoring unreadable semantic index " ++ path.text)])
    | some r =>
      if r.space = space then (r, [])
      else ({ space }, [.warn ("Discarding semantic index built with " ++ r.space ++
        " (now using " ++ space ++ ")")])

/-- The files with a collection in the place of a file. -/
def store (r : Records) (path : Path) (files : Files) : Except IndexError Files :=
  if r.isText then
    (do files.requireDirectory path.parent; files.replace path r.encode).mapError .file
  else .error (.encoding Path.notText)

/-- Saves a collection. -/
def save (r : Records) (files : Files) (path : Path) : Except IndexError Unit × Files :=
  files.changeIn path.parent .file (r.store path)

end Records

end Recast.Meaning
