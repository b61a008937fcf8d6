/-
  Cache/EntryText.lean --- entries of the cache as JSON texts.
-/
import Recast.Cache.Entry
import Recast.Json.Printer
import Recast.Json.Reader
import Recast.Json.Record
import Recast.Text.Utf8

set_option autoImplicit false

namespace Recast

/-! ## Outlines -/

namespace ClassDecl

/-- A class as JSON. -/
def toJson (c : ClassDecl) : Json := .object
  [("name", c.name), ("bases", .ofList .string c.bases), ("methods", .ofList .string c.methods),
   ("doc", .ofOption .string c.doc), ("line", c.line)]

/-- The class that a JSON value describes. -/
def ofJson? (j : Json) : Option ClassDecl := do
  let fields : List Json.Field :=
    [⟨"name", .refused⟩, ⟨"bases", .refused⟩, ⟨"methods", .refused⟩, ⟨"doc", .null⟩,
     ⟨"line", .refused⟩]
  match ← j.record? fields with
  | [some name, some bases, some methods, doc, some line] =>
    return {
      name := ← name.string?
      bases := ← bases.listOf? Json.string?
      methods := ← methods.listOf? Json.string?
      doc := ← Json.optional? Json.string? doc
      line := ← line.word? }
  | _ => none

end ClassDecl

namespace FunctionDecl

/-- A function as JSON. -/
def toJson (f : FunctionDecl) : Json := .object
  [("name", f.name), ("qualified_name", f.qualifiedName), ("owner", .ofOption .string f.owner),
   ("params", .ofList .string f.params), ("doc", .ofOption .string f.doc),
   ("start_line", f.startLine), ("end_line", f.endLine)]

/-- The function that a JSON value describes. -/
def ofJson? (j : Json) : Option FunctionDecl := do
  let fields : List Json.Field :=
    [⟨"name", .refused⟩, ⟨"qualified_name", .refused⟩, ⟨"owner", .null⟩, ⟨"params", .refused⟩,
     ⟨"doc", .null⟩, ⟨"start_line", .refused⟩, ⟨"end_line", .refused⟩]
  match ← j.record? fields with
  | [some name, some qualified, owner, some params, doc, some first, some last] =>
    return {
      name := ← name.string?
      qualifiedName := ← qualified.string?
      owner := ← Json.optional? Json.string? owner
      params := ← params.listOf? Json.string?
      doc := ← Json.optional? Json.string? doc
      startLine := ← first.word?
      endLine := ← last.word? }
  | _ => none

end FunctionDecl

namespace Outline

/-- An outline as JSON. -/
def toJson (o : Outline) : Json := .object
  [("imports", .ofList .string o.imports), ("classes", .ofList ClassDecl.toJson o.classes),
   ("functions", .ofList FunctionDecl.toJson o.functions),
   ("call_graph", .object (o.callGraph.entries.map fun (caller, callees) =>
     (caller, .ofList .string callees.keys))),
   ("module_doc", .ofOption .string o.doc)]

/-- The outline that a JSON value describes. -/
def ofJson? (j : Json) : Option Outline := do
  let fields : List Json.Field :=
    [⟨"imports", .refused⟩, ⟨"classes", .refused⟩, ⟨"functions", .refused⟩,
     ⟨"call_graph", .refused⟩, ⟨"module_doc", .null⟩]
  match ← j.record? fields with
  | [some imports, some classes, some functions, some callGraph, doc] =>
    return {
      imports := ← imports.listOf? Json.string?
      classes := ← classes.listOf? ClassDecl.ofJson?
      functions := ← functions.listOf? FunctionDecl.ofJson?
      callGraph := (← callGraph.tableOf? (Json.listOf? Json.string?)).map Table.Keys.ofList
      doc := ← Json.optional? Json.string? doc }
  | _ => none

end Outline

/-! ## Entries -/

namespace Cache

/-- The point in time in a string. -/
def timestamp? (j : Json) : Option Timestamp := j.string?.bind Timestamp.ofText?

namespace Origin

/-- An origin as JSON. -/
def toJson (o : Origin) : Json := .object
  [("module", o.module), ("go_file", o.goFile), ("service", o.service), ("attempts", o.attempts),
   ("translated_at", o.time.text)]

/-- The origin that a JSON value describes. -/
def ofJson? (j : Json) : Option Origin := do
  let fields : List Json.Field :=
    [⟨"module", .refused⟩, ⟨"go_file", .refused⟩, ⟨"service", .refused⟩, ⟨"attempts", .refused⟩,
     ⟨"translated_at", .refused⟩]
  match ← j.record? fields with
  | [some module, some goFile, some service, some attempts, some time] =>
    return {
      module := ← module.string?
      goFile := ← goFile.string?
      service := ← service.string?
      attempts := ← attempts.below? (2 ^ 32)
      time := ← timestamp? time }
  | _ => none

end Origin

namespace Translation

/-- A translation as JSON. -/
def toJson (t : Translation) : Json := .object
  [("output", t.output), ("metadata", t.origin.toJson)]

/-- The translation that a JSON value describes. -/
def ofJson? (j : Json) : Option Translation := do
  match ← j.record? [⟨"output", .refused⟩, ⟨"metadata", .refused⟩] with
  | [some output, some origin] =>
    return { output := ← output.string?, origin := ← Origin.ofJson? origin }
  | _ => none

end Translation

namespace Entry

/-- An entry as JSON. -/
def toJson (e : Entry) : Json := .object
  [("digest", e.digest.hex), ("analysis", .ofOption Outline.toJson e.outline),
   ("translation", .ofOption Translation.toJson e.translation), ("updated_at", e.time.text)]

/-- The entry that a JSON value describes. -/
def ofJson? (j : Json) : Option Entry := do
  let fields : List Json.Field :=
    [⟨"digest", .refused⟩, ⟨"analysis", .null⟩, ⟨"translation", .null⟩, ⟨"updated_at", .refused⟩]
  match ← j.record? fields with
  | [some digest, outline, translation, some time] =>
    return {
      digest := ⟨← digest.string?⟩
      outline := ← Json.optional? Outline.ofJson? outline
      translation := ← Json.optional? Translation.ofJson? translation
      time := ← timestamp? time }
  | _ => none

/-- The bytes that an entry is kept as. -/
def encode (e : Entry) : ByteArray := (e.toJson.render fun _ => "0").toUTF8

/-- The entry that bytes keep. -/
def decode? (bytes : ByteArray) : Option Entry := do
  ofJson? (← Json.parse? (← Text.Utf8.decode? bytes))

end Entry

end Cache

end Recast
