/-
  Toml/Scalar.lean --- the values of a TOML text that are written without quotes: truth values,
  numbers, dates and times.

  An underscore may stand between two digits.  A date or a time is kept as its text, in which a T
  stands between the two and closing zeros of a fraction are left out.
-/
import Recast.Decimal.Reader
import Recast.Json.Basic
import Recast.Text.Search
import Recast.Timestamp
import Recast.Toml.Quoted

set_option autoImplicit false

namespace Recast.Toml

/-! ### Numbers -/

/-- Digits without the underscores between them. -/
def ungrouped? (isDigit : Char → Bool) (cs : List Char) : Option (List Char) :=
  let groups := Text.splitAtClass (· == '_') cs
  if groups.all fun g => !g.isEmpty && g.all isDigit then some groups.flatten else none

/-- The digits of a decimal number in front of its point.  A zero in front of others is refused. -/
def wholeDigits? (cs : List Char) : Option (List Char) :=
  match ungrouped? Char.isDigit cs with
  | some ('0' :: _ :: _) => none
  | digits => digits

/-- The sign in front of a number, and the number. -/
def signed : List Char → Bool × List Char
  | '-' :: cs => (true, cs)
  | '+' :: cs => (false, cs)
  | cs => (false, cs)

/-- A number of at most 64 bits with a sign. -/
def bounded? (i : Int) : Option Json :=
  if -2 ^ 63 ≤ i ∧ i < 2 ^ 63 then some (.ofInt i) else none

/-- The value of digits in a base. -/
def inBase? (base : Nat) (cs : List Char) : Option Int := do
  let digits ← ungrouped? (fun c => ((Text.hexDigit? c).any (· < base))) cs
  return digits.foldl (fun n c => n * base + (Text.hexDigit? c).getD 0) 0

/-- A whole number. -/
def whole? (cs : List Char) : Option Json :=
  match cs with
  | '0' :: 'x' :: ds => (inBase? 16 ds).bind bounded?
  | '0' :: 'o' :: ds => (inBase? 8 ds).bind bounded?
  | '0' :: 'b' :: ds => (inBase? 2 ds).bind bounded?
  | cs =>
    let (negative, ds) := signed cs
    (wholeDigits? ds).bind fun ds =>
      let n : Int := Text.digitsValue ds
      bounded? (if negative then -n else n)

/-- The text of an exponent, if there is one. -/
def exponent? : List Char → Option (List Char)
  | [] => some []
  | e :: cs =>
    let (negative, ds) := signed cs
    if e = 'e' ∨ e = 'E' then
      (ungrouped? Char.isDigit ds).map fun ds => 'e' :: (if negative then '-' :: ds else ds)
    else none

/-- A fraction without its sign. -/
def unsignedReal? (cs : List Char) : Option Float := do
  let isMark := fun c => c == '.' || c == 'e' || c == 'E'
  let whole ← wholeDigits? (cs.takeWhile fun c => !isMark c)
  let (fraction, rest) ← match cs.dropWhile fun c => !isMark c with
    | [] => none
    | '.' :: rest => (ungrouped? Char.isDigit (rest.takeWhile fun c => !isMark c)).map fun ds =>
        ('.' :: ds, rest.dropWhile fun c => !isMark c)
    | rest => some ([], rest)
  let value ← Decimal.float? (String.ofList (whole ++ fraction ++ (← exponent? rest)))
  if value.isInf then none else some value

/-- A fraction, infinity or what is no number. -/
def real? (cs : List Char) : Option Float :=
  let (negative, ds) := signed cs
  let value :=
    if ds = "inf".toList then some (1.0 / 0.0)
    else if ds = "nan".toList then some (0.0 / 0.0)
    else unsignedReal? ds
  value.map fun v => if negative then -v else v

/-! ### Dates and times -/

/-- A number of a fixed count of digits. -/
def fixed (count : Nat) : Step Nat := fun cs =>
  let ds := cs.take count
  if ds.length = count ∧ ds.all Char.isDigit then some (Text.digitsValue ds, cs.drop count)
  else none

/-- The text after a character. -/
def mark (c : Char) : List Char → Option (List Char)
  | x :: cs => if x = c then some cs else none
  | [] => none

/-- A date, with its text. -/
def date (cs : List Char) : Option (List Char × List Char) := do
  let (year, rest) ← fixed 4 cs
  let (month, rest) ← fixed 2 (← mark '-' rest)
  let (day, rest) ← fixed 2 (← mark '-' rest)
  if 1 ≤ month ∧ month ≤ 12 ∧ 1 ≤ day ∧ day ≤ Timestamp.daysOf year month then
    some (cs.take 10, rest)
  else none

/-- The text of a fraction of a second: at most nine digits, the last one not a zero. -/
def fractionText (digits : List Char) : List Char :=
  match ((digits.take 9).reverse.dropWhile (· == '0')).reverse with
  | [] => []
  | ds => '.' :: ds

/-- A time of day, with its text. -/
def clock (cs : List Char) : Option (List Char × List Char) := do
  let (hour, rest) ← fixed 2 cs
  let (minute, rest) ← fixed 2 (← mark ':' rest)
  let (second, rest) ← fixed 2 (← mark ':' rest)
  if 23 < hour ∨ 59 < minute ∨ 60 < second then none
  else
    match rest with
    | '.' :: rest =>
      let ds := rest.takeWhile Char.isDigit
      if ds.isEmpty then none
      else some (cs.take 8 ++ fractionText ds, rest.drop ds.length)
    | rest => some (cs.take 8, rest)

/-- An offset, with its text; no offset is none either. -/
def offset (cs : List Char) : Option (List Char × List Char) :=
  match cs with
  | c :: rest =>
    if c = 'Z' ∨ c = 'z' then some (['Z'], rest)
    else if c = '+' ∨ c = '-' then do
      let (hours, rest) ← fixed 2 rest
      let (minutes, rest) ← fixed 2 (← mark ':' rest)
      if 23 < hours ∨ 59 < minutes then none
      else some ((if hours + minutes = 0 then '+' else c) :: cs.tail.take 5, rest)
    else some ([], cs)
  | [] => some ([], [])

/-- The text of a date, a time or both. -/
def moment? (cs : List Char) : Option String :=
  match date cs with
  | some (day, []) => some (String.ofList day)
  | some (day, sep :: rest) =>
    if sep = 'T' ∨ sep = 't' ∨ sep = ' ' then do
      let (time, rest) ← clock rest
      let (zone, rest) ← offset rest
      if rest.isEmpty then some (String.ofList (day ++ 'T' :: time ++ zone)) else none
    else none
  | none =>
    match clock cs with
    | some (time, []) => some (String.ofList time)
    | _ => none

/-! ### Any of them -/

/-- Whether a character may belong to a value without quotes. -/
def isScalarChar (c : Char) : Bool := c.isAlphanum || "+-_.:".toList.contains c

/-- The characters of a value without quotes.  A date may go on with a time behind a blank. -/
def scalarText (cs : List Char) : List Char × List Char :=
  let token := cs.takeWhile isScalarChar
  let rest := cs.dropWhile isScalarChar
  match date token, rest with
  | some (_, []), ' ' :: d :: more =>
    if d.isDigit then (token ++ ' ' :: (d :: more).takeWhile isScalarChar,
      (d :: more).dropWhile isScalarChar)
    else (token, rest)
  | _, _ => (token, rest)

/-- The value that characters without quotes write. -/
def ofScalar? (cs : List Char) : Option Json :=
  if cs = "true".toList then some (.bool true)
  else if cs = "false".toList then some (.bool false)
  else (whole? cs).or (((real? cs).map fun v => .number (.real v)).or ((moment? cs).map .string))

/-- A value without quotes. -/
def scalar (cs : List Char) : Option (Json × List Char) :=
  let (token, rest) := scalarText cs
  (ofScalar? token).map fun v => (v, rest)

end Recast.Toml
