/-
  Run/ReportText.lean --- the report of a run as a JSON value, and its text.
-/
import Recast.Decimal.Shortest
import Recast.Json.Printer
import Recast.Run.Report

set_option autoImplicit false

namespace Recast

/-- The JSON value of what the compiler said. -/
def Go.Compilation.toJson (c : Go.Compilation) : Json :=
  .object [("success", c.success), ("diagnostics", Json.strings c.diagnostics)]

/-- The JSON value of a count of tests. -/
def Go.TestCount.toJson (t : Go.TestCount) : Json :=
  .object [("passed", t.passed), ("failed", t.failed)]

/-- The JSON value of what the tools said about a package. -/
def Assessment.ModuleCheck.toJson (m : Assessment.ModuleCheck) : Json :=
  .object [("compile", .ofOption Go.Compilation.toJson m.compilation),
    ("vet", .ofOption Json.strings m.complaints),
    ("tests", .ofOption Go.TestCount.toJson m.tests)]

/-- The JSON value of signals. -/
def Assessment.Signals.toJson (s : Assessment.Signals Float) : Json :=
  .object [("syntax_valid", .ofOption .bool s.syntaxValid),
    ("compiles", .ofOption .bool s.compiles),
    ("unit_tests", .ofOption .ofFloat s.unitTests),
    ("integration_tests", .ofOption .ofFloat s.integrationTests),
    ("business_rules", .ofOption .ofFloat s.businessRules), ("lint", .ofOption .ofFloat s.lint)]

/-- The JSON value of what a translation was found to be worth. -/
def Assessment.Validation.toJson (v : Assessment.Validation) : Json :=
  .object [("signals", v.signals.toJson),
    ("confidence", .object [("score", .ofFloat v.confidence.score),
      ("review", v.confidence.review.label)])]

/-- The JSON value of the figures of the cache. -/
def Cache.Stats.toJson (s : Cache.Stats) : Json :=
  .object [("backend", s.backend), ("available", s.available),
    ("entries", .ofOption .ofNat s.entries), ("hits", s.hits), ("misses", s.misses)]

/-- The JSON value of the figures of the index. -/
def Meaning.Index.Stats.toJson (s : Meaning.Index.Stats) : Json :=
  .object [("embedder", s.embedder), ("files", s.files), ("functions", s.functions),
    ("relations", s.relations)]

/-- The JSON value of what happened to a file. -/
def Conversion.Item.toJson (i : Conversion.Item) : Json :=
  .object [("source_path", i.source.path.text),
    ("target_path", .ofOption (fun p : Path => .string p.text) i.target), ("module", i.module),
    ("status", (Run.statusOf i).label), ("cached", i.cached), ("attempts", i.attempts),
    ("states", Json.strings (i.trace.map (·.label))),
    ("validation", .ofOption Assessment.Validation.toJson i.validation),
    ("failure", .ofOption .string i.failure), ("attempt_failures", Json.strings i.failures)]

namespace Run.Report

/-- The JSON value of a report. -/
def toJson (r : Report) : Json :=
  .object [("settings", .object [("input", r.input.text), ("output", r.output.text),
      ("force", r.force), ("workers", r.workers)]),
    ("cancelled", r.cancelled), ("files_total", r.filesTotal), ("cache_hits", r.cacheHits),
    ("cache_misses", r.cacheMisses), ("translated", r.count .translated),
    ("fallbacks", r.count .fallback), ("failed", r.failed), ("warnings", Json.strings r.warnings),
    ("skipped", .ofList (fun s => .object [("path", s.path.text), ("reason", s.reason)]) r.skipped),
    ("modules", .object (r.modules.map Assessment.ModuleCheck.toJson).entries),
    ("cache", r.cache.toJson), ("index", r.index.toJson),
    ("files", .ofList Conversion.Item.toJson r.items)]

/-- The text of a fraction; infinity and what is no number have none. -/
def renderFloat (v : Float) : String := if v.isFinite then Decimal.render v else "null"

/-- The paths that a report tells. -/
def paths (r : Report) : List Path :=
  r.input :: r.output :: r.skipped.map (·.path) ++
    r.items.flatMap fun i => i.source.path :: i.target.toList

/-- Whether all of them are text. -/
def isText (r : Report) : Bool := r.paths.all fun p => p.raw.isText

/-- The text of a report. -/
def render (r : Report) : String := r.toJson.render renderFloat

end Run.Report

end Recast
