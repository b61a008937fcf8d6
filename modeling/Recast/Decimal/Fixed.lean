/-
  Decimal/Fixed.lean --- numbers with a fixed count of decimal places.  The exact value is rounded,
  a tie to the even last digit; the sign of a number that rounds to zero is kept.
-/
import Recast.Decimal.Binary

set_option autoImplicit false

namespace Recast.Decimal

/-- A natural number of units `10 ^ -places` as a decimal. -/
def withPlaces (places units : Nat) : String :=
  let whole := units / 10 ^ places
  let digits := (toString (10 ^ places + units % 10 ^ places)).toList.tail
  if places = 0 then toString whole else toString whole ++ "." ++ String.ofList digits

/-- The text of a number with a fixed count of decimal places. -/
def Class.renderFixed (places : Nat) : Class → String
  | .notANumber => "NaN"
  | .infinite negative => if negative then "-inf" else "inf"
  | .finite negative m q =>
    let units :=
      if q ≥ 0 then m * 2 ^ q.toNat * 10 ^ places
      else roundEven (m * 10 ^ places) (2 ^ (-q).toNat)
    let body := withPlaces places units
    if negative then "-" ++ body else body

/-- The text of a number in double precision with a fixed count of decimal places. -/
def renderFixed (places : Nat) (v : Float) : String :=
  (decode double v.toBits.toNat).renderFixed places

/-- The text of a number in single precision with a fixed count of decimal places. -/
def renderFixedSingle (places : Nat) (v : Float32) : String :=
  (decode single v.toBits.toNat).renderFixed places

end Recast.Decimal
