/-
  Assessment/Confidence.lean --- how far a translation can be trusted, as a weighted sum of signals.

  The formula is written once for any arithmetic (`score`): the program runs it in double precision
  (`binary`), and statements about it can be made in exact fractions (`exact`).
-/
import Recast.Decimal.Shortest
import Recast.Log

set_option autoImplicit false

namespace Recast.Assessment

/-- The operations that the formula needs. -/
structure Arithmetic (R : Type) where
  /-- What a sum starts from. -/
  start : R
  zero : R
  one : R
  add : R → R → R
  mul : R → R → R
  below : R → R → Bool
  /-- Whether a value is a number at all. -/
  isNumber : R → Bool
  /-- A fraction as a percentage with two decimal places. -/
  percent : R → R

/-- Double precision; a sum starts from negative zero, so that it keeps the sign of its terms. -/
def binary : Arithmetic Float where
  start := -0.0
  zero := 0.0
  one := 1.0
  add := (· + ·)
  mul := (· * ·)
  below x y := x < y
  isNumber x := x == x
  percent x := (x * 10000.0).round / 100.0

/-- The whole number closest to a fraction; of two equally close ones the one farther from zero. -/
def roundAway (x : Rat) : Int :=
  if x < 0 then -((-x + 1 / 2).floor) else (x + 1 / 2).floor

/-- Exact fractions. -/
def exact : Arithmetic Rat where
  start := 0
  zero := 0
  one := 1
  add := (· + ·)
  mul := (· * ·)
  below x y := x < y
  isNumber _ := true
  percent x := (roundAway (x * 10000) : Rat) / 100

/-- What was found out about a translation.  A check that did not run gives no signal. -/
structure Signals (R : Type) where
  syntaxValid : Option Bool := none
  compiles : Option Bool := none
  unitTests : Option R := none
  integrationTests : Option R := none
  businessRules : Option R := none
  lint : Option R := none

/-- The share of each signal in the score. -/
structure Weights (R : Type) where
  syntaxValid : R
  compiles : R
  unitTests : R
  integrationTests : R
  businessRules : R
  lint : R

/-- The usual weights. -/
def Weights.usual : Weights Float := ⟨0.10, 0.15, 0.25, 0.20, 0.20, 0.10⟩

/-- The weights in the order of the signals. -/
def Weights.toList {R : Type} (w : Weights R) : List R :=
  [w.syntaxValid, w.compiles, w.unitTests, w.integrationTests, w.businessRules, w.lint]

namespace Arithmetic

variable {R : Type} (a : Arithmetic R)

/-- A check that passed counts one; one that failed or did not run counts nothing. -/
def flag (signal : Option Bool) : R := if signal = some true then a.one else a.zero

/-- A value moved into the range from zero to one. -/
def clamp (x : R) : R := if a.below x a.zero then a.zero else if a.below a.one x then a.one else x

/-- A share counts as far as it lies between zero and one; one that is missing or no number counts
nothing. -/
def share (signal : Option R) : R :=
  match signal with
  | some x => if a.isNumber x then a.clamp x else a.clamp a.zero
  | none => a.clamp a.zero

/-- A weight; a negative one counts nothing. -/
def positive (w : R) : R := if a.below a.zero w then w else a.zero

/-- The values of the signals, in order. -/
def values (s : Signals R) : List R :=
  [a.flag s.syntaxValid, a.flag s.compiles, a.share s.unitTests, a.share s.integrationTests,
   a.share s.businessRules, a.share s.lint]

/-- A sum from left to right. -/
def sum (xs : List R) : R := xs.foldl a.add a.start

/-- The score of signals under weights, in percent. -/
def score (w : Weights R) (s : Signals R) : R :=
  a.percent (a.sum (List.zipWith a.mul (w.toList.map a.positive) (a.values s)))

end Arithmetic

/-! ## Review -/

/-- How thoroughly a translation has to be looked through, the least work first. -/
inductive Review where
  | none
  | spotCheck
  | focused
  | full
  deriving DecidableEq

/-- The name of a review level. -/
def Review.label : Review → String
  | .none => "no_review"
  | .spotCheck => "spot_check"
  | .focused => "focused_review"
  | .full => "full_review"

/-- The name of a review level in one word. -/
def Review.word : Review → String
  | .none => "NoReview"
  | .spotCheck => "SpotCheck"
  | .focused => "FocusedReview"
  | .full => "FullReview"

/-- The scores from which on less review is needed. -/
structure Thresholds (R : Type) where
  noReview : R
  spotCheck : R
  focusedReview : R

/-- The thresholds in their order. -/
def Thresholds.toList {R : Type} (t : Thresholds R) : List R :=
  [t.noReview, t.spotCheck, t.focusedReview]

/-- The usual thresholds. -/
def Thresholds.usual : Thresholds Float := ⟨95.0, 85.0, 70.0⟩

/-- The review that a score calls for; `reaches` tells whether a score reaches a threshold. -/
def Thresholds.review {R : Type} (reaches : R → R → Bool) (t : Thresholds R) (score : R) : Review :=
  if reaches score t.noReview then .none
  else if reaches score t.spotCheck then .spotCheck
  else if reaches score t.focusedReview then .focused
  else .full

/-- Whether a value reaches a bound in double precision. -/
def reachesFloat (x bound : Float) : Bool := bound ≤ x

/-- A score with the review that it calls for. -/
structure Confidence where
  score : Float
  review : Review

/-- The confidence that signals justify. -/
def confidence (w : Weights Float) (t : Thresholds Float) (s : Signals Float) : Confidence :=
  let score := binary.score w s
  ⟨score, t.review reachesFloat score⟩

/-! ## Checking the settings -/

/-- What is odd about weights. -/
def Weights.warnings (w : Weights Float) : Log :=
  let total := binary.sum w.toList
  (if w.toList.any (· < 0.0) then
    [.warn "tools.go_validator.weights contains a negative weight; clamping it to 0"] else []) ++
  (if (total - 1.0).abs > 1e-6 then
    [.warn ("tools.go_validator.weights sum to " ++ Decimal.render total ++
      ", not 1; scores are not percentages")] else [])

/-- What is odd about thresholds. -/
def Thresholds.warnings (t : Thresholds Float) : Log :=
  if t.spotCheck ≤ t.noReview && t.focusedReview ≤ t.spotCheck then []
  else [.warn "tools.go_validator.thresholds are not in descending order"]

end Recast.Assessment
