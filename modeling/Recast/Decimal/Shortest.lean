/-
  Decimal/Shortest.lean --- the shortest decimal that reads back as a binary fraction.

  Of the decimals with the fewest digits that round to the number the closest one is taken, of two
  equally close ones the greater.  It is written in positional notation without an exponent.
-/
import Recast.Decimal.Binary

set_option autoImplicit false

namespace Recast.Decimal

/-- The reals that round to `m * 2 ^ q`, in quarters of `2 ^ q`: the lower end, the number itself,
the upper end, and whether the ends belong to them. -/
structure Interval where
  lower : Nat
  value : Nat
  upper : Nat
  closed : Bool

/-- The interval of a finite number. -/
def interval (fmt : Format) (m : Nat) (q : Int) : Interval :=
  let narrow := m = 2 ^ fmt.fieldBits ∧ q > -(fmt.depth : Int)
  ⟨4 * m - (if narrow then 1 else 2), 4 * m, 4 * m + 2, m % 2 = 0⟩

/-- Whether a decimal `a * 10 ^ k`, both sides scaled to whole numbers, lies in an interval. -/
def Interval.holds (i : Interval) (a : Nat) : Bool :=
  if i.closed then i.lower ≤ a && a ≤ i.upper else i.lower < a && a < i.upper

/-- The point of the grid of multiples of `10 ^ k` that is the text of the number, if one is. -/
def gridPoint (i : Interval) (exponent k : Int) : Option Nat :=
  -- One quarter unit is `2 ^ (exponent - 2)`; both it and the grid are scaled by a common factor.
  let twos := exponent - 2
  let unit := 2 ^ twos.toNat * 10 ^ (-k).toNat
  let grid := 10 ^ k.toNat * 2 ^ (-twos).toNat
  let scale (i : Interval) : Interval := ⟨i.lower * unit, i.value * unit, i.upper * unit, i.closed⟩
  let s := scale i
  let below := s.value / grid
  let above := below + 1
  let fits (a : Nat) : Bool := s.holds (a * grid)
  match fits below, fits above with
  | true, true => if s.value - below * grid < above * grid - s.value then some below else some above
  | true, false => some below
  | false, true => some above
  | false, false => none

/-- The first grid with a fitting point, from `k` downwards. -/
def firstGrid (i : Interval) (exponent : Int) : Nat → Int → Nat × Int
  | 0, k => (i.value, k)
  | fuel + 1, k =>
    match gridPoint i exponent k with
    | some a => (a, k)
    | none => firstGrid i exponent fuel (k - 1)

/-- The digits of the shortest decimal for `m * 2 ^ q` and the power of ten they count. -/
def shortest (fmt : Format) (m : Nat) (q : Int) : Nat × Int :=
  let magnitude : Int := (Nat.log2 m : Int) + 1 + q
  let start : Int := if magnitude ≥ 0 then magnitude * 30103 / 100000 + 1
    else -((-magnitude) * 30102 / 100000) + 1
  firstGrid (interval fmt m q) q 40 start

/-- Digits times a power of ten in positional notation. -/
def positional (digits : Nat) (power : Int) : String :=
  let ds := (toString digits).toList
  if power ≥ 0 then String.ofList (ds ++ List.replicate power.toNat '0')
  else
    let places := (-power).toNat
    let padded := List.replicate (places + 1 - ds.length) '0' ++ ds
    let point := padded.length - places
    String.ofList (padded.take point ++ '.' :: padded.drop point)

/-- The text of a number. -/
def Class.render (fmt : Format) : Class → String
  | .notANumber => "NaN"
  | .infinite negative => if negative then "-inf" else "inf"
  | .finite negative m q =>
    let body :=
      if m = 0 then "0"
      else
        let (digits, power) := shortest fmt m q
        positional digits power
    if negative then "-" ++ body else body

/-- The text of a number in double precision. -/
def render (v : Float) : String := (decode double v.toBits.toNat).render double

end Recast.Decimal
