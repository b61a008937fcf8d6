/-
  Settings/Tools.lean --- the settings of the parts of a run, and how they are read.

  Every part has a table of its own.  A table that is missing leaves the defaults; a key that no
  part knows is reported and passed over; a value of the wrong kind makes the whole table unusable.
-/
import Recast.Assessment.Validator
import Recast.Cache.Basic
import Recast.Conversion.Translate
import Recast.Inference.Backend
import Recast.Layout.Rules
import Recast.Meaning.Index
import Recast.Scan
import Recast.Settings.Value

set_option autoImplicit false

namespace Recast

/-- How the service is asked for translations. -/
structure Settings.Requests where
  backend : Backend.Settings := {}
  /-- How often a request is repeated. -/
  maxRetries : UInt32 := 2
  /-- Whether the rest of an answer is left when the code is complete. -/
  earlyStop : Bool := true
  /-- How many pieces of an answer must have arrived before that. -/
  minChunks : Nat := 400
  deriving DecidableEq, Inhabited

/-- The settings of the parts of a run. -/
structure Tools where
  scan : Scan.Settings := {}
  cache : Cache.Settings := {}
  index : Meaning.IndexSettings := {}
  /-- How many related places a prompt shows. -/
  topK : Nat := 5
  requests : Settings.Requests := {}
  layout : Layout.Settings := {}
  checks : Assessment.Settings := {}

namespace Settings

/-- What is odd about the settings. -/
def Requests.warnings (s : Requests) : Log :=
  (if 10 < s.maxRetries then
    [.warn ("tools.llm_translation.max_retries is " ++ toString s.maxRetries ++
      "; every failing file will be requested that many extra times")] else []) ++
  (if s.backend.model.isEmpty then [.warn "tools.llm_translation.model is empty"] else [])

/-- A line about a key that is not known. -/
def unknownKey (path : String) : String := "Warning: unknown config key " ++ path

/-- Lines about the keys of a table that are not known. -/
def unknownKeys (path : String) (known : List String) : Json → List String
  | .object members =>
    ((Table.Keys.ofList (members.map (·.1))).keys.filter fun k => !known.contains k).map fun k =>
      unknownKey (path ++ k)
  | _ => []

/-! ### The tables -/

/-- The fields of the scan. -/
def scanFields : List String := ["max_file_size_bytes"]

/-- Reads the settings of the scan. -/
def scan? (v : Json) : Option Scan.Settings := do
  let get ← group? scanFields v
  return ⟨← field? get "max_file_size_bytes" nat? ({} : Scan.Settings).maxSize⟩

/-- The fields of the cache. -/
def cacheFields : List String :=
  ["backend", "redis_url", "key_prefix", "ttl_secs", "connect_timeout_secs"]

/-- Reads the settings of the cache. -/
def cache? (v : Json) : Option Cache.Settings := do
  let get ← group? cacheFields v
  let d : Cache.Settings := {}
  return ⟨← field? get "backend" (choice? Cache.Backend.ofLabel?) d.backend,
    ← field? get "redis_url" text? d.address, ← field? get "key_prefix" text? d.keyStart,
    ← field? get "ttl_secs" nat? d.ttlSeconds,
    ← field? get "connect_timeout_secs" nat? d.connectTimeoutSeconds⟩

/-- The fields of the index. -/
def indexFields : List String :=
  ["enabled", "embedder", "dimension", "ollama_url", "ollama_model", "timeout_secs", "persist"]

/-- Reads the settings of the index. -/
def index? (v : Json) : Option Meaning.IndexSettings := do
  let get ← group? indexFields v
  let d : Meaning.IndexSettings := {}
  return ⟨← field? get "enabled" bool? d.enabled,
    ← field? get "embedder" (choice? Meaning.EmbedderKind.ofLabel?) d.embedder,
    ← field? get "dimension" nat? d.dimension, ← field? get "ollama_url" text? d.address,
    ← field? get "ollama_model" text? d.model, ← field? get "timeout_secs" nat? d.timeoutSeconds,
    ← field? get "persist" bool? d.persist⟩

/-- The fields of prompts. -/
def promptFields : List String := ["top_k"]

/-- Reads how many related places a prompt shows. -/
def topK? (v : Json) : Option Nat := do
  let get ← group? promptFields v
  field? get "top_k" nat? ({} : Tools).topK

/-- The fields of the service. -/
def backendFields : List String :=
  ["address", "api_key", "backend", "model", "max_tokens", "timeout_secs", "stream"]

/-- A value that `null` leaves out. -/
def optional? {α : Type} (read : Json → Option α) : Json → Option (Option α)
  | .null => some none
  | v => (read v).map some

/-- A natural number below a bound, which must be written as one. -/
def exactNat? (bound : Nat) : Json → Option Nat
  | .number n => match signed n with
    | .whole (.ofNat n) => if n < bound then some n else none
    | _ => none
  | _ => none

/-- Reads the settings of the service.  Here a value must be of the right kind as it stands. -/
def backend? (get : String → Option Json) : Option Backend.Settings := do
  let d : Backend.Settings := {}
  return ⟨← field? get "address" (optional? Json.string?) d.address,
    ← field? get "api_key" (optional? Json.string?) d.apiKey,
    ← field? get "backend" Json.string? d.backend, ← field? get "model" Json.string? d.model,
    ← field? get "max_tokens" (exactNat? (2 ^ 32)) d.maxTokens,
    ← field? get "timeout_secs" (exactNat? (2 ^ 64)) d.timeoutSeconds,
    ← field? get "stream" Json.bool? d.stream⟩

/-- The fields of requests. -/
def requestFields : List String :=
  backendFields ++ ["max_retries", "early_stop", "min_stream_tokens"]

/-- Reads the settings of requests, which must be a table. -/
def requests? (v : Json) : Option Requests := do
  let get := member? (← v.members?)
  let d : Requests := {}
  return ⟨← backend? get, ← field? get "max_retries" word? d.maxRetries,
    ← field? get "early_stop" bool? d.earlyStop, ← field? get "min_stream_tokens" nat? d.minChunks⟩

/-- The fields of a rule. -/
def ruleFields : List String := ["keywords", "module"]

/-- Reads a rule, neither field of which may be missing. -/
def rule? (v : Json) : Option Layout.Rule := do
  let get ← group? ruleFields v
  return ⟨← (get "keywords").bind (listOf? text?), ← (get "module").bind text?⟩

/-- The fields of the layout. -/
def layoutFields : List String := ["rules", "default_module", "go_module_path"]

/-- Reads the settings of the layout. -/
def layout? (v : Json) : Option Layout.Settings := do
  let get ← group? layoutFields v
  let d : Layout.Settings := {}
  return ⟨← field? get "rules" (listOf? rule?) d.rules,
    ← field? get "default_module" text? d.defaultModule,
    ← field? get "go_module_path" text? d.goModulePath⟩

/-- The weights of signals, in order. -/
def weightFields : List String :=
  ["syntax", "compiles", "unit_tests", "integration_tests", "business_rules", "lint"]

/-- Reads the weights of signals. -/
def weights? (v : Json) : Option (Assessment.Weights Float) := do
  let get ← group? weightFields v
  let d := Assessment.Weights.usual
  return ⟨← field? get "syntax" float? d.syntaxValid, ← field? get "compiles" float? d.compiles,
    ← field? get "unit_tests" float? d.unitTests,
    ← field? get "integration_tests" float? d.integrationTests,
    ← field? get "business_rules" float? d.businessRules, ← field? get "lint" float? d.lint⟩

/-- The thresholds of reviews, in order. -/
def thresholdFields : List String := ["no_review", "spot_check", "focused_review"]

/-- Reads the thresholds of reviews. -/
def thresholds? (v : Json) : Option (Assessment.Thresholds Float) := do
  let get ← group? thresholdFields v
  let d := Assessment.Thresholds.usual
  return ⟨← field? get "no_review" float? d.noReview, ← field? get "spot_check" float? d.spotCheck,
    ← field? get "focused_review" float? d.focusedReview⟩

/-- The fields of the checks. -/
def checkFields : List String :=
  ["use_toolchain", "go_binary", "gofmt_binary", "run_tests", "weights", "thresholds"]

/-- Reads the settings of the checks. -/
def checks? (v : Json) : Option Assessment.Settings := do
  let get ← group? checkFields v
  let d : Assessment.Settings := {}
  return ⟨← field? get "use_toolchain" bool? d.useToolchain, ← field? get "go_binary" text? d.go,
    ← field? get "gofmt_binary" text? d.gofmt, ← field? get "run_tests" bool? d.runTests,
    ← field? get "weights" weights? d.weights, ← field? get "thresholds" thresholds? d.thresholds⟩

/-! ### All tables -/

/-- A reading, which may fail with the name of a part and leaves lines behind in any case. -/
abbrev Reading (α : Type) := ExceptT String (StateM (List String)) α

/-- Reads the table of a part. -/
def part {α : Type} (tables : String → Option Json) (name : String) (fields : List String)
    (read : Json → Option α) (default : α) : Reading α :=
  match tables name with
  | none => pure default
  | some v => do
    modify (· ++ unknownKeys ("tools." ++ name ++ ".") fields v)
    match read v with
    | some a => pure a
    | none => throw name

end Settings

namespace Tools

open Settings

/-- Reads the tables of all parts, of which the first bad one ends the reading. -/
def read (tables : String → Option Json) : Settings.Reading Tools := do
  let d : Tools := {}
  return ⟨← part tables "scan_source" scanFields scan? d.scan,
    ← part tables "structural_cache" cacheFields cache? d.cache,
    ← part tables "semantic_index" indexFields index? d.index,
    ← part tables "prompt_context" promptFields topK? d.topK,
    ← part tables "llm_translation" requestFields requests? d.requests,
    ← part tables "organize_output" layoutFields layout? d.layout,
    ← part tables "go_validator" checkFields checks? d.checks⟩

/-- What is odd about the settings. -/
def warnings (t : Tools) : Log :=
  t.scan.warnings ++ t.cache.warnings ++ t.index.warnings ++
  (if t.topK = 0 then
    [.warn "tools.prompt_context.top_k is 0; prompts will carry no related context"] else []) ++
  t.requests.warnings ++ t.layout.warnings ++ t.checks.warnings

/-- The settings in a table of tables, or the part whose table is bad, and the lines about unknown
keys. -/
def ofTable (tables : Json) : Except String Tools × List String :=
  (read (member? (tables.members?.getD []))).run.run []

end Tools

end Recast
