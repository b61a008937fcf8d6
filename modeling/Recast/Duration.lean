/-
  Duration.lean --- lengths of time and how they are written: in the largest unit that fits, with
  the decimal places that are needed.
-/
import Recast.Instances

set_option autoImplicit false

namespace Recast

/-- A length of time. -/
structure Duration where
  nanoseconds : Nat
  deriving DecidableEq, Inhabited

namespace Duration

/-- A number of seconds. -/
def ofSeconds (n : Nat) : Duration := ⟨n * 10 ^ 9⟩

/-- A number in front of a decimal point and the digits behind it, without closing zeros. -/
def decimal (whole fraction places : Nat) : String :=
  let digits := (toString (10 ^ places + fraction)).toList.tail
  let kept := (digits.reverse.dropWhile (· == '0')).reverse
  if kept.isEmpty then toString whole
  else toString whole ++ "." ++ String.ofList kept

/-- The text of a length of time. -/
def render (d : Duration) : String :=
  let n := d.nanoseconds
  if n ≥ 10 ^ 9 then decimal (n / 10 ^ 9) (n % 10 ^ 9) 9 ++ "s"
  else if n ≥ 10 ^ 6 then decimal (n / 10 ^ 6) (n % 10 ^ 6) 6 ++ "ms"
  else if n ≥ 10 ^ 3 then decimal (n / 10 ^ 3) (n % 10 ^ 3) 3 ++ "µs"
  else toString n ++ "ns"

end Duration

end Recast
