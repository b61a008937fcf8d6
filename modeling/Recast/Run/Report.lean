/-
  Run/Report.lean --- what a run did, file by file and as a whole.

  The figures of a report are counted from its files (`Report.count`, `Report.passed`), so they
  cannot disagree with them.
-/
import Recast.Conversion.Translate
import Recast.Scan

set_option autoImplicit false

namespace Recast.Run

/-- How a file ended. -/
inductive Status where
  /-- A new translation that passed the check was written. -/
  | translated
  /-- A translation from the cache was used. -/
  | cached
  /-- A skeleton was written. -/
  | fallback
  /-- The file could not be parsed. -/
  | parseFailed
  /-- The run was cancelled before the file was finished. -/
  | cancelled
  /-- The translation could not be written. -/
  | failed
  deriving DecidableEq

/-- The name of a status in a report. -/
def Status.label : Status → String
  | .translated => "translated"
  | .cached => "cached"
  | .fallback => "fallback"
  | .parseFailed => "parse_failed"
  | .cancelled => "cancelled"
  | .failed => "failed"

/-- How a file ended. -/
def statusOf (item : Conversion.Item) : Status :=
  if item.outline.isNone && item.stage == .pending then .parseFailed
  else if item.stage == .cancelled || item.unwritten then .cancelled
  else if item.target.isNone then .failed
  else if item.cached then .cached
  else if item.fallback then .fallback
  else .translated

/-- What a run did. -/
structure Report where
  input : Path
  output : Path
  force : Bool
  workers : Nat
  cancelled : Bool
  /-- Problems that concern the whole run. -/
  warnings : List String
  skipped : List Scan.Skipped
  /-- What the tools said about the packages. -/
  modules : Table String Assessment.ModuleCheck
  cache : Cache.Stats
  index : Meaning.Index.Stats
  /-- The files in the order of their paths. -/
  items : List Conversion.Item

namespace Report

/-- The number of files that ended in a way. -/
def count (r : Report) (status : Status) : Nat :=
  (r.items.filter fun i => statusOf i == status).length

/-- The number of files that passed through a stage. -/
def passed (r : Report) (stage : Conversion.Stage) : Nat :=
  (r.items.filter fun i => i.trace.contains stage).length

/-- The number of files that were found. -/
def filesTotal (r : Report) : Nat := r.items.length + r.skipped.length

/-- The number of translations that the cache had. -/
def cacheHits (r : Report) : Nat := r.passed .cacheHit

/-- The number of translations that the cache did not have. -/
def cacheMisses (r : Report) : Nat := r.passed .cacheMiss

/-- The number of files without a translation because something failed. -/
def failed (r : Report) : Nat := r.count .parseFailed + r.count .failed

/-- The name of the file that the report of a run is written to. -/
def fileName : String := "run_report.json"

/-- What is said at the end of a run. -/
def summary (r : Report) : Log :=
  .info (toString r.filesTotal ++ " file(s): " ++ toString r.cacheHits ++ " cache hit(s), " ++
    toString r.cacheMisses ++ " miss(es), " ++ toString (r.count .translated) ++ " translated, " ++
    toString (r.count .fallback) ++ " fallback(s), " ++ toString r.failed ++ " failed, " ++
    toString r.skipped.length ++ " skipped") ::
  r.items.flatMap (fun i => match i.failure, i.validation with
    | some failure, _ => [.warn (i.source.path.text ++ ": " ++ failure)]
    | none, some v => [.info (i.source.path.text ++ ": confidence " ++
        Decimal.renderFixed 2 v.confidence.score ++ " (" ++ v.confidence.review.word ++ ")")]
    | none, none => []) ++
  r.warnings.map .warn ++
  (if r.cancelled then [.warn "The run was cancelled; unfinished files have no output"] else [])

end Report

end Recast.Run
