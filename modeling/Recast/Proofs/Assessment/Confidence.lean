/-
  Proofs/Assessment/Confidence.lean --- what raising a signal does to the score and to the review.

  In exact fractions a score is a rounded sum of weights that are not negative times values between
  zero and one.  Such a sum grows with its values (`weighted_le`), and rounding keeps the order
  (`roundAway_mono`).  So raising signals never lowers the score, and the signals where nothing was
  found out and those where everything went well bound all other scores.
-/
import Mathlib.Algebra.Order.BigOperators.Group.List
import Mathlib.Data.Rat.Floor
import Mathlib.Tactic.Linarith
import Recast.Assessment.Confidence

set_option autoImplicit false

namespace Recast.Assessment

/-! ## Rounding -/

theorem abs_floor_add_half_sub_le (x : Rat) : |((x + 1 / 2).floor : Rat) - x| ≤ 1 / 2 := by
  have hlower : ((x + 1 / 2).floor : Rat) ≤ x + 1 / 2 := Int.floor_le (x + 1 / 2)
  have hupper : x + 1 / 2 < ((x + 1 / 2).floor : Rat) + 1 := Int.lt_floor_add_one (x + 1 / 2)
  rw [abs_le]
  constructor
  · linarith
  · linarith

/-- A fraction is at most half a unit away from the whole number it is rounded to. -/
theorem abs_roundAway_sub_le (x : Rat) : |(roundAway x : Rat) - x| ≤ 1 / 2 := by
  unfold roundAway
  split
  · have hmirror : ((-(-x + 1 / 2).floor : Int) : Rat) - x =
        -(((-x + 1 / 2).floor : Rat) - -x) := by
      rw [Int.cast_neg]
      ring
    rw [hmirror, abs_neg]
    exact abs_floor_add_half_sub_le (-x)
  · exact abs_floor_add_half_sub_le x

/-- Rounding keeps the order: two fractions in the wrong order after it would both be half a unit
away, and equal. -/
theorem roundAway_mono {x y : Rat} (h : x ≤ y) : roundAway x ≤ roundAway y := by
  by_contra hnot
  have hstep : roundAway y + 1 ≤ roundAway x := not_le.1 hnot
  have hstep' : (roundAway y : Rat) + 1 ≤ roundAway x := by exact_mod_cast hstep
  have hx := abs_le.1 (abs_roundAway_sub_le x)
  have hy := abs_le.1 (abs_roundAway_sub_le y)
  have heq : x = y := by linarith
  subst heq
  exact hnot le_rfl

/-- A number rounded to two decimals: a whole number of hundredths, half of one away at most. -/
structure IsRounded (x rounded : Rat) : Prop where
  hundredths : ∃ n : Int, rounded = n / 100
  near : |rounded - x| ≤ 1 / 200

theorem exact_percent (x : Rat) : exact.percent x = (roundAway (x * 10000) : Rat) / 100 := rfl

theorem isRounded_percent (x : Rat) : IsRounded (100 * x) (exact.percent x) := by
  refine ⟨⟨roundAway (x * 10000), exact_percent x⟩, ?_⟩
  have hnear := abs_le.1 (abs_roundAway_sub_le (x * 10000))
  rw [exact_percent, abs_le]
  constructor
  · linarith
  · linarith

theorem percent_mono {x y : Rat} (h : x ≤ y) : exact.percent x ≤ exact.percent y := by
  have hround : roundAway (x * 10000) ≤ roundAway (y * 10000) := by
    apply roundAway_mono
    linarith
  have hcast : (roundAway (x * 10000) : Rat) ≤ roundAway (y * 10000) := by exact_mod_cast hround
  rw [exact_percent, exact_percent]
  linarith

theorem percent_zero : exact.percent 0 = 0 := by decide +kernel

/-! ## Weighted sums -/

theorem exact_sum (xs : List Rat) : exact.sum xs = xs.sum := List.sum_eq_foldl.symm

/-- A sum of values with weights that are not negative grows with the values. -/
theorem weighted_le {weights values values' : List Rat} (hweights : ∀ w ∈ weights, 0 ≤ w)
    (h : List.Forall₂ (· ≤ ·) values values') :
    (List.zipWith (· * ·) weights values).sum ≤ (List.zipWith (· * ·) weights values').sum := by
  induction h generalizing weights with
  | nil => simp
  | cons hle _ ih =>
    cases weights with
    | nil => simp
    | cons w weights =>
      simp only [List.zipWith_cons_cons, List.sum_cons]
      have hfirst := mul_le_mul_of_nonneg_left hle (hweights w List.mem_cons_self)
      have hrest := ih fun w' hw' => hweights w' (List.mem_cons_of_mem _ hw')
      exact add_le_add hfirst hrest

/-- What the weights add up to, those that are negative left out. -/
def Weights.total (w : Weights Rat) : Rat := (w.toList.filter (0 ≤ ·)).sum

theorem exact_positive (w : Rat) : exact.positive w = max w 0 := by
  by_cases h : 0 < w
  · simp [Arithmetic.positive, exact, h, h.le]
  · simp [Arithmetic.positive, exact, h, not_lt.1 h]

theorem positive_nonneg (w : Weights Rat) : ∀ x ∈ w.toList.map exact.positive, 0 ≤ x := by
  intro x hx
  obtain ⟨y, -, rfl⟩ := List.mem_map.1 hx
  rw [exact_positive]
  exact le_max_right _ _

theorem sum_map_positive (ws : List Rat) :
    (ws.map exact.positive).sum = (ws.filter (0 ≤ ·)).sum := by
  induction ws with
  | nil => rfl
  | cons w ws ih =>
    rw [List.map_cons, List.sum_cons, ih, exact_positive]
    by_cases h : 0 ≤ w
    · simp [h]
    · simp [h, (not_le.1 h).le]

/-! ## Signals -/

/-- What a check found stays, is raised, or is there now where nothing was. -/
def Lifts {α : Type} [LE α] (before after : Option α) : Prop :=
  ∀ x ∈ before, ∃ y ∈ after, x ≤ y

theorem Lifts.refl {α : Type} [Preorder α] (signal : Option α) : Lifts signal signal := by
  intro x hx
  exact ⟨x, hx, le_rfl⟩

/-- Signals of which each stays or is raised. -/
structure Signals.RaisedTo (s s' : Signals Rat) : Prop where
  syntaxValid : Lifts s.syntaxValid s'.syntaxValid
  compiles : Lifts s.compiles s'.compiles
  unitTests : Lifts s.unitTests s'.unitTests
  integrationTests : Lifts s.integrationTests s'.integrationTests
  businessRules : Lifts s.businessRules s'.businessRules
  lint : Lifts s.lint s'.lint

theorem exact_clamp (x : Rat) : exact.clamp x = max 0 (min x 1) := by
  by_cases hneg : x < 0
  · simp [Arithmetic.clamp, exact, hneg, hneg.le]
  · by_cases hbig : 1 < x
    · simp [Arithmetic.clamp, exact, hneg, hbig, hbig.le]
    · simp [Arithmetic.clamp, exact, hneg, hbig, not_lt.1 hneg, not_lt.1 hbig]

theorem clamp_nonneg (x : Rat) : 0 ≤ exact.clamp x := by
  rw [exact_clamp]
  exact le_max_left _ _

theorem clamp_le_one (x : Rat) : exact.clamp x ≤ 1 := by
  rw [exact_clamp]
  exact max_le zero_le_one (min_le_right _ _)

theorem clamp_mono {x y : Rat} (h : x ≤ y) : exact.clamp x ≤ exact.clamp y := by
  rw [exact_clamp, exact_clamp]
  exact max_le_max le_rfl (min_le_min h le_rfl)

theorem share_le_one (signal : Option Rat) : exact.share signal ≤ 1 := by
  cases signal with
  | none => exact zero_le_one
  | some x => exact clamp_le_one x

theorem share_mono {before after : Option Rat} (h : Lifts before after) :
    exact.share before ≤ exact.share after := by
  cases before with
  | none =>
    cases after with
    | none => exact le_rfl
    | some y => exact clamp_nonneg y
  | some x =>
    obtain ⟨y, hy, hle⟩ := h x rfl
    obtain rfl : after = some y := hy
    exact clamp_mono hle

theorem flag_le_one (signal : Option Bool) : exact.flag signal ≤ 1 := by
  unfold Arithmetic.flag
  split
  · exact le_rfl
  · exact zero_le_one

theorem flag_nonneg (signal : Option Bool) : 0 ≤ exact.flag signal := by
  unfold Arithmetic.flag
  split
  · exact zero_le_one
  · exact le_rfl

theorem flag_mono {before after : Option Bool} (h : Lifts before after) :
    exact.flag before ≤ exact.flag after := by
  by_cases hbefore : before = some true
  · obtain ⟨y, hy, hle⟩ := h true hbefore
    obtain rfl : y = true := top_le_iff.1 hle
    rw [hbefore, show after = some true from hy]
  · have hzero : exact.flag before = 0 := by
      rw [Arithmetic.flag, if_neg hbefore]
      rfl
    rw [hzero]
    exact flag_nonneg after

theorem values_mono {s s' : Signals Rat} (h : s.RaisedTo s') :
    List.Forall₂ (· ≤ ·) (exact.values s) (exact.values s') := by
  simp only [Arithmetic.values, List.forall₂_cons]
  exact ⟨flag_mono h.syntaxValid, flag_mono h.compiles, share_mono h.unitTests,
    share_mono h.integrationTests, share_mono h.businessRules, share_mono h.lint, .nil⟩

/-- Signals where nothing was found out can only be raised. -/
theorem nothing_raisedTo (s : Signals Rat) : ({} : Signals Rat).RaisedTo s :=
  ⟨nofun, nofun, nofun, nofun, nofun, nofun⟩

/-- Signals where everything went well. -/
def Signals.passed : Signals Rat := ⟨some true, some true, some 1, some 1, some 1, some 1⟩

theorem values_le_passed (s : Signals Rat) :
    List.Forall₂ (· ≤ ·) (exact.values s) (exact.values Signals.passed) := by
  have hflag : exact.flag (some true) = 1 := rfl
  have hshare : exact.share (some 1) = 1 := by decide +kernel
  simp only [Arithmetic.values, Signals.passed, hflag, hshare]
  simp [flag_le_one, share_le_one]

/-! ## Scores -/

theorem exact_score (w : Weights Rat) (s : Signals Rat) : exact.score w s =
    exact.percent (List.zipWith (· * ·) (w.toList.map exact.positive) (exact.values s)).sum := by
  rw [Arithmetic.score, exact_sum]
  rfl

theorem score_le_of_values {s s' : Signals Rat} (w : Weights Rat)
    (h : List.Forall₂ (· ≤ ·) (exact.values s) (exact.values s')) :
    exact.score w s ≤ exact.score w s' := by
  rw [exact_score, exact_score]
  exact percent_mono (weighted_le (positive_nonneg w) h)

theorem score_nothing (w : Weights Rat) : exact.score w {} = 0 := by
  have hvalues : exact.values ({} : Signals Rat) = [0, 0, 0, 0, 0, 0] := by decide +kernel
  rw [exact_score, hvalues]
  simp [Weights.toList, percent_zero]

theorem score_passed (w : Weights Rat) : exact.score w Signals.passed = exact.percent w.total := by
  have hvalues : exact.values Signals.passed = [1, 1, 1, 1, 1, 1] := by decide +kernel
  have hsum : (List.zipWith (· * ·) (w.toList.map exact.positive) [1, 1, 1, 1, 1, 1]).sum =
      (w.toList.map exact.positive).sum := by
    simp [Weights.toList]
  rw [exact_score, hvalues, hsum, sum_map_positive]
  rfl

/-! ## Review -/

/-- How much work a review is: the stricter it is, the more. -/
def Review.effort : Review → Nat
  | .none => 0
  | .spotCheck => 1
  | .focused => 2
  | .full => 3

/-- Whether a value reaches a bound, in exact fractions. -/
def reachesExact (x bound : Rat) : Bool := bound ≤ x

/-- The effort of the review counts the thresholds in front of the first one that is reached. -/
theorem effort_review {R : Type} (reaches : R → R → Bool) (t : Thresholds R) (score : R) :
    (t.review reaches score).effort = t.toList.findIdx (reaches score) := by
  unfold Thresholds.review
  simp only [Thresholds.toList, List.findIdx_cons, List.findIdx_nil]
  cases reaches score t.noReview with
  | true => rfl
  | false =>
    cases reaches score t.spotCheck with
    | true => rfl
    | false => cases reaches score t.focusedReview <;> rfl

/-- A higher score reaches the thresholds that a lower one reaches, in whatever order they stand. -/
theorem effort_review_le (t : Thresholds Rat) {x y : Rat} (h : x ≤ y) :
    (t.review reachesExact y).effort ≤ (t.review reachesExact x).effort := by
  rw [effort_review, effort_review]
  apply List.findIdx_le_findIdx
  intro bound _ hreached
  have hx : bound ≤ x := of_decide_eq_true hreached
  exact decide_eq_true (hx.trans h)

/-- Whatever the weights and the thresholds, raising signals lowers no score and makes no review
stricter, and the scores lie between zero and what all weights that are not negative add up to, as a
percentage with two decimals. -/
theorem score_mono_bounded (w : Weights Rat) (t : Thresholds Rat) :
    (∀ s s' : Signals Rat, s.RaisedTo s' →
      exact.score w s ≤ exact.score w s' ∧
        (t.review reachesExact (exact.score w s')).effort ≤
          (t.review reachesExact (exact.score w s)).effort) ∧
      (∀ s : Signals Rat, 0 ≤ exact.score w s ∧ exact.score w s ≤ exact.percent w.total) ∧
      IsRounded (100 * w.total) (exact.percent w.total) := by
  refine ⟨?_, ?_, isRounded_percent w.total⟩
  · intro s s' hraised
    have hscore : exact.score w s ≤ exact.score w s' := score_le_of_values w (values_mono hraised)
    exact ⟨hscore, effort_review_le t hscore⟩
  · intro s
    constructor
    · rw [← score_nothing w]
      exact score_le_of_values w (values_mono (nothing_raisedTo s))
    · rw [← score_passed w]
      exact score_le_of_values w (values_le_passed s)

/-- Weights of which one is negative. -/
def unevenWeights : Weights Rat := ⟨1 / 10, -1, 1 / 4, 1 / 3, 1 / 5, 1 / 2⟩

/-- Thresholds out of order. -/
def unorderedThresholds : Thresholds Rat := ⟨50, 60, 20⟩

/-- Signals with a share above one and with a third that rounding shows. -/
def testedSignals : Signals Rat :=
  { compiles := some true, unitTests := some 2, integrationTests := some (1 / 7) }

/-- The same signals with those of a check that had not run. -/
def lintedSignals : Signals Rat := { testedSignals with lint := some (1 / 2) }

/-- The check raises the score from 29.76 to 54.76, which spares a focused review. -/
theorem score_mono_bounded_linted :
    testedSignals.RaisedTo lintedSignals ∧
      (exact.score unevenWeights testedSignals = 2976 / 100 ∧
        exact.score unevenWeights lintedSignals = 5476 / 100) ∧
      (unorderedThresholds.review reachesExact (2976 / 100) = .focused ∧
        unorderedThresholds.review reachesExact (5476 / 100) = .none) ∧
      exact.score unevenWeights testedSignals ≤ exact.score unevenWeights lintedSignals ∧
      (unorderedThresholds.review reachesExact (exact.score unevenWeights lintedSignals)).effort ≤
        (unorderedThresholds.review reachesExact
          (exact.score unevenWeights testedSignals)).effort := by
  have hraised : testedSignals.RaisedTo lintedSignals :=
    ⟨.refl _, .refl _, .refl _, .refl _, .refl _, nofun⟩
  have hmono := (score_mono_bounded unevenWeights unorderedThresholds).1 _ _ hraised
  refine ⟨hraised, ⟨?_, ?_⟩, ⟨?_, ?_⟩, hmono⟩
  · decide +kernel
  · decide +kernel
  · decide +kernel
  · decide +kernel

end Recast.Assessment
