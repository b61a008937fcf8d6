/-
  Timestamp.lean --- points in time as they are written: a date, a time of day and the offset of a
  time zone, as in 2024-01-02T03:04:05.678+02:00.

  Between date and time stands a T or a blank; blanks may surround the numbers; a fraction of a
  second may have any number of digits; the sixtieth second of a minute may be a leap second.
-/
import Recast.Text.Blank
import Recast.Text.Digit

set_option autoImplicit false

namespace Recast

namespace Timestamp

/-- A reading step: a value and the text after it. -/
abbrev Step (α : Type) := List Char → Option (α × List Char)

/-- A number of one or more digits, at most the given count, with blanks in front. -/
def number (most : Nat) : Step Nat := fun cs =>
  let cs := Text.trimStart cs
  let ds := (cs.takeWhile Char.isDigit).take most
  if ds.isEmpty then none else some (Text.digitsValue ds, cs.drop ds.length)

/-- A character with blanks in front. -/
def mark (c : Char) : List Char → Option (List Char)
  | cs =>
    match Text.trimStart cs with
    | x :: rest => if x = c then some rest else none
    | [] => none

/-- A year: four digits, or a sign and any number of digits. -/
def year : Step Int := fun cs =>
  match Text.trimStart cs with
  | '-' :: rest =>
    let ds := rest.takeWhile Char.isDigit
    if ds.isEmpty then none else some (-(Text.digitsValue ds : Int), rest.drop ds.length)
  | '+' :: rest =>
    let ds := rest.takeWhile Char.isDigit
    if ds.isEmpty then none else some (Text.digitsValue ds, rest.drop ds.length)
  | cs => (number 4 cs).map fun (n, rest) => ((n : Int), rest)

/-- Whether a year has a leap day. -/
def isLeapYear (y : Int) : Bool := y % 4 == 0 && (y % 100 != 0 || y % 400 == 0)

/-- The number of days of a month. -/
def daysOf (y : Int) (month : Nat) : Nat :=
  if month = 2 then (if isLeapYear y then 29 else 28)
  else if [4, 6, 9, 11].contains month then 30
  else 31

/-- The first and the last year that can be represented. -/
def yearRange : Int × Int := (-262143, 262142)

/-- A date. -/
def date (cs : List Char) : Option (List Char) := do
  let (y, cs) ← year cs
  let (month, cs) ← number 2 (← mark '-' cs)
  let (day, cs) ← number 2 (← mark '-' cs)
  if yearRange.1 ≤ y ∧ y ≤ yearRange.2 ∧ 1 ≤ month ∧ month ≤ 12 ∧ 1 ≤ day ∧
      day ≤ daysOf y month then
    some cs
  else none

/-- The character between date and time. -/
def separator : List Char → Option (List Char)
  | c :: cs => if c = 'T' ∨ c = 't' ∨ c = ' ' then some cs else none
  | [] => none

/-- A fraction of a second, if there is one. -/
def fraction : List Char → Option (List Char)
  | '.' :: cs => if cs.head?.any Char.isDigit then some (cs.dropWhile Char.isDigit) else none
  | cs => some cs

/-- A time of day. -/
def clock (cs : List Char) : Option (List Char) := do
  let (hour, cs) ← number 2 cs
  let (minute, cs) ← number 2 (← mark ':' cs)
  let (second, cs) ← number 2 (← mark ':' cs)
  if hour ≤ 23 ∧ minute ≤ 59 ∧ second ≤ 60 then fraction cs else none

/-- Two digits. -/
def twoDigits : Step Nat
  | a :: b :: rest => if a.isDigit ∧ b.isDigit then some (Text.digitsValue [a, b], rest) else none
  | _ => none

/-- Hours and minutes after the sign of an offset. -/
def offset (cs : List Char) : Option (List Char) := do
  let (hours, cs) ← twoDigits cs
  let (minutes, cs) ← twoDigits (cs.dropWhile fun c => c == ':' || Text.isBlank c)
  if hours ≤ 23 ∧ minutes ≤ 59 then some cs else none

/-- A time zone. -/
def zone : List Char → Option (List Char)
  | c :: cs =>
    if c = 'Z' ∨ c = 'z' then some cs
    else if (c :: cs).take 3 |>.map Char.toUpper |> (· == ['U', 'T', 'C']) then some (cs.drop 2)
    else if c = '+' ∨ c = '-' ∨ c = Char.ofNat 0x2212 then offset cs
    else none
  | [] => none

/-- Whether a text is a point in time. -/
def isValid (text : String) : Bool :=
  let rest := do
    let cs ← date text.toList
    let cs ← clock (← separator cs)
    zone (Text.trimStart cs)
  rest.any Text.allBlank

end Timestamp

/-- A point in time as it is written. -/
structure Timestamp where
  text : String
  valid : Timestamp.isValid text = true
  deriving DecidableEq

namespace Timestamp

/-- The point in time that a text writes. -/
def ofText? (text : String) : Option Timestamp :=
  if h : isValid text = true then some ⟨text, h⟩ else none

/-- The beginning of the year 1970. -/
def epoch : Timestamp := ⟨"1970-01-01T00:00:00Z", by decide⟩

instance : Inhabited Timestamp := ⟨epoch⟩

end Timestamp

end Recast
