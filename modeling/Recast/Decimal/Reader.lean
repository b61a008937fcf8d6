/-
  Decimal/Reader.lean --- reading decimal numbers.

  A number is a sign, digits with an optional point among or beside them, and an optional exponent;
  `inf`, `infinity` and `nan` in any case are numbers as well.  The value is the binary fraction
  closest to the decimal.
-/
import Recast.Decimal.Binary
import Recast.Text.Digit

set_option autoImplicit false

namespace Recast.Decimal

/-- The exponent at the end of a number. -/
def exponent? : List Char → Option Int
  | [] => some 0
  | c :: cs =>
    if c = 'e' ∨ c = 'E' then
      let (negative, ds) := match cs with
        | '+' :: ds => (false, ds)
        | '-' :: ds => (true, ds)
        | ds => (false, ds)
      if ds.isEmpty || !ds.all Char.isDigit then none
      else if negative then some (-(Text.digitsValue ds : Int))
      else some (Text.digitsValue ds)
    else none

/-- The digits and the power of ten of an unsigned decimal. -/
def decimal? (cs : List Char) : Option (Nat × Int) :=
  let whole := cs.takeWhile Char.isDigit
  let rest := cs.dropWhile Char.isDigit
  let (fraction, rest) := match rest with
    | '.' :: rest => (rest.takeWhile Char.isDigit, rest.dropWhile Char.isDigit)
    | rest => ([], rest)
  if whole.isEmpty && fraction.isEmpty then none
  else (exponent? rest).map fun e => (Text.digitsValue (whole ++ fraction), e - fraction.length)

/-- The decimal exponents beyond which every number is infinite or zero. -/
def exponentLimit : Nat := 500

/-- The bit pattern closest to a decimal, without its sign. -/
def ofDecimal (fmt : Format) (digits : Nat) (power : Int) : Nat :=
  let size : Int := (Nat.log2 digits : Int) * 3 / 10 + power
  if digits = 0 then 0
  else if size > exponentLimit then fmt.infinity
  else if size < -(exponentLimit : Int) then 0
  else if power ≥ 0 then nearest fmt (digits * 10 ^ power.toNat) 1
  else nearest fmt digits (10 ^ (-power).toNat)

/-- The bit pattern of an unsigned number. -/
def unsigned? (fmt : Format) (cs : List Char) : Option Nat :=
  let low := cs.map Char.toLower
  if low = "inf".toList ∨ low = "infinity".toList then some fmt.infinity
  else if low = "nan".toList then some (fmt.infinity + 2 ^ (fmt.fieldBits - 1))
  else (decimal? cs).map fun (digits, power) => ofDecimal fmt digits power

/-- The bit pattern of a number. -/
def bits? (fmt : Format) (s : String) : Option Nat :=
  match s.toList with
  | '-' :: cs => (unsigned? fmt cs).map (· + fmt.sign)
  | '+' :: cs => unsigned? fmt cs
  | cs => unsigned? fmt cs

/-- The number in double precision that a text writes. -/
def float? (s : String) : Option Float := (bits? double s).map fun b => Float.ofBits b.toUInt64

/-- The number in single precision that a text writes. -/
def float32? (s : String) : Option Float32 :=
  (bits? single s).map fun b => Float32.ofBits b.toUInt32

end Recast.Decimal
