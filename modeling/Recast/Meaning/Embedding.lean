/-
  Meaning/Embedding.lean --- texts as vectors of fixed length.

  Each word adds one or takes one away at a place of the vector that its digest picks; the vector is
  then brought to length one.
-/
import Recast.Digest
import Recast.Text.Case
import Recast.Text.Letter
import Recast.Text.Search

set_option autoImplicit false

namespace Recast.Meaning

/-- A vector. -/
abbrev Vector := List Float32

/-- The lower-case words of a text; a word of several parts between underscores counts by its parts
and as a whole. -/
def textWords (text : List Char) : List (List Char) :=
  ((Text.splitAtClass (fun c => !Text.isWordChar c) text).filter (!·.isEmpty)).flatMap fun w =>
    let low := Text.lower w
    let parts := (Text.splitAtClass (· == '_') low).filter (!·.isEmpty)
    if parts.length > 1 then parts ++ [low] else parts

/-- The place that a word picks, and whether it adds there. -/
def wordPlace (dimension : Nat) (word : List Char) : Nat × Bool :=
  let sum := Digest.sum (String.ofList word).toUTF8.toList
  let number := (sum.take 8).foldr (fun b n => n * 256 + b.toNat) 0
  (number % dimension, (sum.drop 8).head?.all fun b => b % 2 == 0)

/-- The sum of squares of a vector. -/
def squareSum (v : Vector) : Float32 := v.foldl (fun s x => s + x * x) (-0.0)

/-- A vector brought to length one; a vector of zeros stays as it is. -/
def normalized (v : Vector) : Vector :=
  let norm := (squareSum v).sqrt
  if norm > 0.0 then v.map (· / norm) else v

/-- The vector of a text. -/
def embed (dimension : Nat) (text : String) : Vector :=
  let dimension := max dimension 1
  let counts := (textWords text.toList).foldl (fun v word =>
    let (place, adds) := wordPlace dimension word
    v.modify place fun x => if adds then x + 1.0 else x - 1.0)
    (Array.replicate dimension (0.0 : Float32))
  normalized counts.toList

/-- The name of the vectors of a dimension. -/
def embeddingName (dimension : Nat) : String := "hashing-" ++ toString (max dimension 1)

end Recast.Meaning
