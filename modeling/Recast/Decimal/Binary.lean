/-
  Decimal/Binary.lean --- binary fractions of fixed precision, as exact integers.

  A finite number is `m * 2 ^ q` with a whole significand `m`.  `nearest` rounds a quotient of
  natural numbers to the closest such number, a tie to the even significand.
-/
import Recast.Instances

set_option autoImplicit false

namespace Recast.Decimal

/-- A format of binary fractions. -/
structure Format where
  /-- The bits of a significand. -/
  precision : Nat
  /-- The smallest exponent of a significand is minus this. -/
  depth : Nat
  /-- The bits of an exponent field. -/
  exponentBits : Nat

/-- Double precision. -/
def double : Format := ⟨53, 1074, 11⟩

/-- Single precision. -/
def single : Format := ⟨24, 149, 8⟩

namespace Format

/-- The bits below the exponent field. -/
def fieldBits (fmt : Format) : Nat := fmt.precision - 1

/-- The bit pattern of infinity. -/
def infinity (fmt : Format) : Nat := (2 ^ fmt.exponentBits - 1) * 2 ^ fmt.fieldBits

/-- The bit pattern of the sign. -/
def sign (fmt : Format) : Nat := 2 ^ (fmt.exponentBits + fmt.fieldBits)

end Format

/-- What a bit pattern stands for. -/
inductive Class where
  | finite (negative : Bool) (significand : Nat) (exponent : Int)
  | infinite (negative : Bool)
  | notANumber
  deriving DecidableEq

/-- The number of a bit pattern. -/
def decode (fmt : Format) (bits : Nat) : Class :=
  let negative := bits / fmt.sign % 2 = 1
  let field := bits / 2 ^ fmt.fieldBits % 2 ^ fmt.exponentBits
  let low := bits % 2 ^ fmt.fieldBits
  if field = 2 ^ fmt.exponentBits - 1 then
    if low = 0 then .infinite negative else .notANumber
  else if field = 0 then .finite negative low (-(fmt.depth : Int))
  else .finite negative (low + 2 ^ fmt.fieldBits) ((field : Int) - 1 - fmt.depth)

/-- A quotient rounded to a whole number, a tie to the even one. -/
def roundEven (num den : Nat) : Nat :=
  let q := num / den
  let r := num % den
  if 2 * r < den then q
  else if den < 2 * r then q + 1
  else if q % 2 = 0 then q else q + 1

/-- A quotient over a power of two, as a numerator and a denominator. -/
def scaled (num den : Nat) (exponent : Int) : Nat × Nat :=
  if exponent ≥ 0 then (num, den * 2 ^ exponent.toNat) else (num * 2 ^ (-exponent).toNat, den)

/-- The bit pattern of the number closest to a quotient, without its sign. -/
def nearest (fmt : Format) (num den : Nat) : Nat :=
  if num = 0 ∨ den = 0 then 0
  else
    let guess : Int := (Nat.log2 num : Int) - Nat.log2 den - fmt.fieldBits
    let short := let (n, d) := scaled num den guess; n / d < 2 ^ fmt.fieldBits
    let exponent := max (-(fmt.depth : Int)) (if short then guess - 1 else guess)
    let (n, d) := scaled num den exponent
    let bits := (exponent + fmt.depth).toNat * 2 ^ fmt.fieldBits + roundEven n d
    min bits fmt.infinity

end Recast.Decimal
