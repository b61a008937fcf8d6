/-
  Settings/Defaults.lean --- settings written as a table, and the table that holds if nothing is
  said.
-/
import Recast.Settings.Tools

set_option autoImplicit false

namespace Recast

namespace Settings

/-- A table of fields and their values. -/
def table (fields : List String) (values : List Json) : Json := .object (fields.zip values)

/-- The table of the weights of signals. -/
def weightsTable (w : Assessment.Weights Float) : Json :=
  table weightFields (w.toList.map .ofFloat)

/-- The table of the thresholds of reviews. -/
def thresholdsTable (t : Assessment.Thresholds Float) : Json :=
  table thresholdFields (t.toList.map .ofFloat)

/-- The table of a rule. -/
def ruleTable (r : Layout.Rule) : Json :=
  table ruleFields [Json.strings r.keywords, r.module]

end Settings

namespace Tools

open Settings

/-- The tables of all parts. -/
def toTable (t : Tools) : Json :=
  let (c, x, q, l, k) := (t.cache, t.index, t.requests, t.layout, t.checks)
  let b := q.backend
  .object [
    ("scan_source", table scanFields [t.scan.maxSize]),
    ("structural_cache", table cacheFields
      [c.backend.label, c.address, c.keyStart, c.ttlSeconds, c.connectTimeoutSeconds]),
    ("semantic_index", table indexFields
      [x.enabled, x.embedder.label, x.dimension, x.address, x.model, x.timeoutSeconds, x.persist]),
    ("prompt_context", table promptFields [t.topK]),
    ("llm_translation", table requestFields
      [.ofOption .string b.address, .ofOption .string b.apiKey, b.backend, b.model, b.maxTokens,
       b.timeoutSeconds, b.stream, q.maxRetries.toNat, q.earlyStop, q.minChunks]),
    ("organize_output", table layoutFields
      [.ofList ruleTable l.rules, l.defaultModule, l.goModulePath]),
    ("go_validator", table checkFields
      [k.useToolchain, k.go, k.gofmt, k.runTests, weightsTable k.weights,
       thresholdsTable k.thresholds])]

end Tools

end Recast
