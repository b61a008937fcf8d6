/-
  Cache/Entry.lean --- what is remembered about a source file: the digest of the content it is
  about, its outline and its translation.
-/
import Recast.Digest
import Recast.Outline.Basic
import Recast.Timestamp

set_option autoImplicit false

namespace Recast.Cache

/-- Where a translation came from. -/
structure Origin where
  module : String
  goFile : String
  /-- The name of the service. -/
  service : String
  /-- The number of requests that it took. -/
  attempts : Nat
  time : Timestamp
  deriving DecidableEq

/-- A translation that can be used again. -/
structure Translation where
  output : String
  origin : Origin
  deriving DecidableEq

/-- What is remembered about a source file. -/
structure Entry where
  digest : Digest
  outline : Option Outline := none
  translation : Option Translation := none
  /-- When the entry was written. -/
  time : Timestamp := .epoch

end Recast.Cache
