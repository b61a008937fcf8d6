/-
  Meaning/Records.lean --- records of meanings by key, each with a vector, and the search for the
  records closest to a vector.

  A search ranks records by a whole number that orders scores totally, so that its result is
  determined: by descending rank, then by key.
-/
import Recast.Meaning.Embedding
import Recast.Meaning.Match
import Recast.Table

set_option autoImplicit false

namespace Recast.Meaning

/-- What a record says. -/
structure Payload where
  meaning : String
  subject : Subject
  sourcePath : Path
  /-- The name of the function or class, or the imported module. -/
  name : Option String := none
  metadata : Table String String := ∅

/-- A record. -/
structure Record where
  vector : Vector
  payload : Payload

/-! ## Similarity -/

/-- The sum of the products of vectors. -/
def dot (a b : Vector) : Float32 := (List.zipWith (· * ·) a b).foldl (· + ·) (-0.0)

/-- The cosine of the angle between vectors; zero if one of them has no length. -/
def cosine (a b : Vector) : Float32 :=
  let denominator := (squareSum a).sqrt * (squareSum b).sqrt
  if denominator == 0.0 then 0.0 else dot a b / denominator

/-- The number of bit patterns with a given sign. -/
def signBit : Nat := 2 ^ 31

/-- The place of a bit pattern in the total order of numbers: negative ones first, the larger the
lower; negative zero comes just before zero. -/
def orderOfBits (bits : Nat) : Int :=
  if bits < signBit then bits else -((bits : Int) - signBit) - 1

/-- The rank of a score.  A score that is no number because infinities met comes last, one that is
no number because a vector holds none comes first. -/
def rank (a b : Vector) (score : Float32) : Int :=
  if score == score || a.any (fun x => x != x) || b.any (fun x => x != x) then
    orderOfBits score.toBits.toNat
  else orderOfBits (signBit + score.toBits.toNat)

/-! ## Records -/

/-- A collection of records by key. -/
structure Records where
  /-- The name of the kind of vectors. -/
  space : String
  items : Table String Record := ∅

/-- Which records a search considers. -/
structure Scope where
  subject : Option Subject := none
  /-- A file whose records are left out. -/
  excluded : Option Path := none

/-- Whether a search considers a record. -/
def Scope.accepts (scope : Scope) (p : Payload) : Bool :=
  (scope.subject.all fun s => s == p.subject) &&
    (scope.excluded.all fun path => !path.same p.sourcePath)

/-- A record found by a search. -/
structure Scored where
  key : String
  score : Float32
  rank : Int
  payload : Payload

namespace Records

/-- The number of components that a new vector must have. -/
def dimension? (r : Records) : Option Nat := r.items.values.head?.map (·.vector.length)

/-- The collection with a record put under a key, unless its vector has another number of
components than the others, which is given instead. -/
def put (r : Records) (key : String) (record : Record) : Except Nat Records :=
  match r.dimension? with
  | some expected =>
    if record.vector.length = expected then .ok { r with items := r.items.insert key record }
    else .error expected
  | none => .ok { r with items := r.items.insert key record }

/-- The records that a search considers, in the order of their keys. -/
def scored (r : Records) (vector : Vector) (scope : Scope) : List Scored :=
  (r.items.entries.filter fun (_, record) => scope.accepts record.payload).map fun (key, record) =>
    let score := cosine vector record.vector
    ⟨key, score, Meaning.rank vector record.vector score, record.payload⟩

/-- The `count` records closest to a vector, the closest first. -/
def query (r : Records) (vector : Vector) (count : Nat) (scope : Scope) : List Scored :=
  ((r.scored vector scope).mergeSort fun a b => b.rank ≤ a.rank).take count

/-- What the record under a key says. -/
def get? (r : Records) (key : String) : Option Payload := (r.items.get? key).map (·.payload)

/-- The collection without the records of a file. -/
def eraseSource (r : Records) (path : Path) : Records :=
  { r with items := r.items.filter fun _ record => !record.payload.sourcePath.same path }

/-- The collection without records. -/
def clear (r : Records) : Records := { r with items := ∅ }

/-- The number of records. -/
def size (r : Records) : Nat := r.items.size

/-- The files that records are about, in order. -/
def sources (r : Records) : List Path :=
  (r.items.values.foldl
    (fun (t : Table (List RawText) Path) record =>
      if t.contains record.payload.sourcePath.key then t
      else t.insert record.payload.sourcePath.key record.payload.sourcePath) ∅).values

/-- The number of records about a kind of subject. -/
def count (r : Records) (subject : Subject) : Nat :=
  (r.items.values.filter fun record => record.payload.subject == subject).length

end Records

end Recast.Meaning
