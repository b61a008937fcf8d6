/-
  Conversion/Stage.lean --- the stages that a file passes through on its way to a Go file.

  `allows` is the relation between a stage and the next one.  `Done` and `Cancelled` are the only
  stages that nothing follows (`allows_eq_false_of_isFinal`, `exists_allows_of_not_isFinal`).
-/

set_option autoImplicit false

namespace Recast.Conversion

/-- A stage of a conversion. -/
inductive Stage where
  | pending
  | cacheCheck
  | cacheHit
  | cacheMiss
  | contextBuild
  | requestSent
  | streaming
  | complete
  | extracted
  | valid
  | invalid
  | retry
  | templateFallback
  | done
  | cancelled
  deriving DecidableEq, Inhabited

namespace Stage

/-- The stages in the order of their declaration. -/
def all : List Stage :=
  [pending, cacheCheck, cacheHit, cacheMiss, contextBuild, requestSent, streaming, complete,
   extracted, valid, invalid, retry, templateFallback, done, cancelled]

theorem mem_all (s : Stage) : s ∈ all := by cases s <;> decide

/-- The name of a stage in a log. -/
def word : Stage → String
  | pending => "Pending"
  | cacheCheck => "CacheCheck"
  | cacheHit => "CacheHit"
  | cacheMiss => "CacheMiss"
  | contextBuild => "ContextBuild"
  | requestSent => "RequestSent"
  | streaming => "Streaming"
  | complete => "Complete"
  | extracted => "Extracted"
  | valid => "Valid"
  | invalid => "Invalid"
  | retry => "Retry"
  | templateFallback => "TemplateFallback"
  | done => "Done"
  | cancelled => "Cancelled"

/-- The name of a stage in a report. -/
def label : Stage → String
  | pending => "PENDING"
  | cacheCheck => "CACHE_CHECK"
  | cacheHit => "CACHE_HIT"
  | cacheMiss => "CACHE_MISS"
  | contextBuild => "CONTEXT_BUILD"
  | requestSent => "REQUEST_SENT"
  | streaming => "STREAMING"
  | complete => "COMPLETE"
  | extracted => "EXTRACTED"
  | valid => "VALID"
  | invalid => "INVALID"
  | retry => "RETRY"
  | templateFallback => "TEMPLATE_FALLBACK"
  | done => "DONE"
  | cancelled => "CANCELLED"

/-- The stage with a name. -/
def ofLabel? (s : String) : Option Stage := all.find? fun stage => stage.label == s

/-- The stages that may follow a stage. -/
def successors : Stage → List Stage
  | pending => [cacheCheck, cancelled]
  | cacheCheck => [cacheHit, cacheMiss, cancelled]
  | cacheHit => [done]
  | cacheMiss => [contextBuild, cancelled]
  | contextBuild => [requestSent, cancelled]
  | requestSent => [streaming, complete, retry, templateFallback, cancelled]
  | streaming => [extracted, retry, templateFallback, cancelled]
  | complete => [extracted]
  | extracted => [valid, invalid]
  | valid => [done]
  | invalid => [retry, templateFallback]
  | retry => [requestSent, cancelled]
  | templateFallback => [done]
  | done => []
  | cancelled => []

/-- Whether a stage may follow another one. -/
def allows (s next : Stage) : Bool := s.successors.contains next

/-- Whether a stage is the last one of a conversion. -/
def isFinal (s : Stage) : Bool := s == done || s == cancelled

theorem allows_eq_false_of_isFinal {s : Stage} (h : s.isFinal = true) (next : Stage) :
    s.allows next = false := by
  simp only [isFinal, Bool.or_eq_true, beq_iff_eq] at h
  rcases h with rfl | rfl <;> rfl

theorem exists_allows_of_not_isFinal {s : Stage} (h : s.isFinal = false) :
    ∃ next, s.allows next = true := by
  cases s with
  | done | cancelled => simp [isFinal] at h
  | pending => exact ⟨cacheCheck, rfl⟩
  | cacheCheck => exact ⟨cacheHit, rfl⟩
  | cacheHit | valid | templateFallback => exact ⟨done, rfl⟩
  | cacheMiss => exact ⟨contextBuild, rfl⟩
  | contextBuild | retry => exact ⟨requestSent, rfl⟩
  | requestSent => exact ⟨complete, rfl⟩
  | streaming | complete => exact ⟨extracted, rfl⟩
  | extracted => exact ⟨valid, rfl⟩
  | invalid => exact ⟨retry, rfl⟩

end Stage

end Recast.Conversion
