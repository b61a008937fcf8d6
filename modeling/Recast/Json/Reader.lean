/-
  Json/Reader.lean --- reading a JSON text.

  The whole text has to be one value with blanks around it.  Values nest at most 128 deep.  A
  control character inside a string, half of a surrogate pair and a number with a leading zero are
  refused.
-/
import Recast.Json.Basic
import Recast.Text.Digit

set_option autoImplicit false

namespace Recast.Json.Reader

/-- A reading step: a value and the text after it. -/
abbrev Step (α : Type) := List Char → Option (α × List Char)

/-- The text after leading blanks. -/
def skipBlanks : List Char → List Char
  | c :: cs => if c = ' ' ∨ c = '\n' ∨ c = '\t' ∨ c = '\r' then skipBlanks cs else c :: cs
  | [] => []

/-! ## Numbers -/

/-- The exponent bound beyond which a power of ten is not a binary fraction. -/
def maxTenExponent : Nat := 308

/-- A significand of at most 64 bits times a power of ten, one rounding for each factor.  A value
that is too large comes out as infinity. -/
def scaleByTen (significand : Nat) (exponent : Int) : Float :=
  let tenTo (n : Nat) : Float := OfScientific.ofScientific 1 false n
  let value := significand.toUInt64.toFloat
  if exponent ≥ 0 then
    if value == 0 then value
    else if exponent.toNat ≤ maxTenExponent then value * tenTo exponent.toNat
    else 1.0 / 0.0
  else
    let rec shrink : Nat → Nat → Float → Float
      | 0, _, v => v
      | fuel + 1, n, v =>
        if n ≤ maxTenExponent then v / tenTo n
        else if v == 0 then v
        else shrink fuel (n - maxTenExponent) (v / tenTo maxTenExponent)
    shrink (exponent.natAbs + 1) exponent.natAbs value

/-- The decimal digit a character stands for. -/
def digit? (c : Char) : Option Nat :=
  if '0' ≤ c ∧ c ≤ '9' then some (c.toNat - '0'.toNat) else none

/-- The largest significand that is read exactly. -/
def maxSignificand : Nat := 2 ^ 64 - 1

/-- The digits of a fraction: each one that still fits extends the significand, the rest are
dropped.  The count is that of the digits used. -/
def fractionDigits (significand used : Nat) (full : Bool) : List Char → Nat × Nat × List Char
  | c :: cs =>
    match digit? c with
    | some d =>
      if full ∨ significand * 10 + d > maxSignificand then fractionDigits significand used true cs
      else fractionDigits (significand * 10 + d) (used + 1) false cs
    | none => (significand, used, c :: cs)
  | [] => (significand, used, [])

/-- Leading decimal digits and the text after them. -/
def spanDigits (cs : List Char) : List Char × List Char :=
  (cs.takeWhile Char.isDigit, cs.dropWhile Char.isDigit)

/-- The part of a number after its digits: an optional exponent. -/
def exponentPart (significand : Nat) (exponent : Int) : Step Float
  | c :: cs =>
    if c = 'e' ∨ c = 'E' then
      let (negative, cs) := match cs with
        | '+' :: cs => (false, cs)
        | '-' :: cs => (true, cs)
        | cs => (false, cs)
      let (digits, rest) := spanDigits cs
      if digits.isEmpty then none
      else
        let written := min (Text.digitsValue digits) 100000
        let exponent := if negative then exponent - written else exponent + written
        some (scaleByTen significand exponent, rest)
    else some (scaleByTen significand exponent, c :: cs)
  | [] => some (scaleByTen significand exponent, [])

/-- The part of a number after its whole digits: an optional fraction and exponent. -/
def fractionPart (significand : Nat) (exponent : Int) : Step Float
  | '.' :: cs =>
    match cs with
    | c :: _ =>
      if (digit? c).isNone then none
      else
        let (significand, used, rest) := fractionDigits significand 0 false cs
        exponentPart significand (exponent - used) rest
    | [] => none
  | cs => exponentPart significand exponent cs

/-- Whether a text goes on with a fraction or an exponent. -/
def hasFraction : List Char → Bool
  | c :: _ => c == '.' || c == 'e' || c == 'E'
  | [] => false

/-- The longest run of leading digits whose value fits a significand. -/
def significandDigits (value : Nat) : List Char → Nat × List Char
  | c :: cs =>
    match digit? c with
    | some d =>
      if value * 10 + d > maxSignificand then (value, c :: cs)
      else significandDigits (value * 10 + d) cs
    | none => (value, c :: cs)
  | [] => (value, [])

/-- A number without its sign. -/
def unsignedNumber (negative : Bool) (cs : List Char) : Option (Number × List Char) :=
  let sign (v : Float) : Float := if negative then -v else v
  match cs with
  | [] => none
  | c :: tail =>
    if (digit? c).isNone then none
    else if c = '0' ∧ tail.head?.any Char.isDigit then none
    else
      let (value, rest) := significandDigits 0 cs
      if rest.head?.any Char.isDigit then
        let (dropped, rest) := spanDigits rest
        (fractionPart value dropped.length rest).map fun (v, rest) => (.real (sign v), rest)
      else if hasFraction rest then
        (fractionPart value 0 rest).map fun (v, rest) => (.real (sign v), rest)
      else if negative then
        if value = 0 ∨ value > 2 ^ 63 then some (.real (-value.toUInt64.toFloat), rest)
        else some (.whole (-value), rest)
      else some (.whole value, rest)

/-- A number. -/
def number : Step Number
  | '-' :: cs => unsignedNumber true cs
  | cs => unsignedNumber false cs

/-! ## Strings -/

/-- The value of four hexadecimal digits. -/
def hexWord (a b c d : Char) : Option Nat := do
  return (((← Text.hexDigit? a) * 16 + (← Text.hexDigit? b)) * 16 + (← Text.hexDigit? c)) * 16 +
    (← Text.hexDigit? d)

/-- The character behind a one-letter escape. -/
def simpleEscape? (c : Char) : Option Char :=
  match c with
  | '"' => some '"'
  | '\\' => some '\\'
  | '/' => some '/'
  | 'b' => some '\x08'
  | 'f' => some '\x0c'
  | 'n' => some '\n'
  | 'r' => some '\r'
  | 't' => some '\t'
  | _ => none

/-- The rest of a string after its opening quote, in front of the characters already read
(reversed). -/
def stringTail (read : List Char) : Step String
  | [] => none
  | '"' :: cs => some (String.ofList read.reverse, cs)
  | '\\' :: 'u' :: a :: b :: c :: d :: cs =>
    match hexWord a b c d with
    | none => none
    | some high =>
      if 0xD800 ≤ high ∧ high < 0xDC00 then
        match cs with
        | '\\' :: 'u' :: a :: b :: c :: d :: cs =>
          match hexWord a b c d with
          | none => none
          | some low =>
            if 0xDC00 ≤ low ∧ low < 0xE000 then
              stringTail
                (Char.ofNat (0x10000 + (high - 0xD800) * 0x400 + (low - 0xDC00)) :: read) cs
            else none
        | _ => none
      else if 0xDC00 ≤ high ∧ high < 0xE000 then none
      else stringTail (Char.ofNat high :: read) cs
  | '\\' :: c :: cs =>
    match simpleEscape? c with
    | some e => stringTail (e :: read) cs
    | none => none
  | c :: cs => if c < ' ' ∨ c = '\\' then none else stringTail (c :: read) cs

/-! ## Values -/

/-- Items after an opening bracket, separated by commas, up to the closing character. -/
def sequenceTail {α : Type} (close : Char) (item : Step α) : Nat → List α → Step (List α)
  | 0, _, _ => none
  | fuel + 1, read, cs =>
    match item (skipBlanks cs) with
    | none => none
    | some (a, rest) =>
      match skipBlanks rest with
      | ',' :: rest => sequenceTail close item fuel (a :: read) rest
      | c :: rest => if c = close then some ((a :: read).reverse, rest) else none
      | [] => none

/-- The items of a bracketed sequence, after the opening bracket. -/
def sequenceItems {α : Type} (close : Char) (item : Step α) (cs : List Char) :
    Option (List α × List Char) :=
  match skipBlanks cs with
  | c :: rest => if c = close then some ([], rest) else sequenceTail close item cs.length [] cs
  | [] => none

/-- A member of an object. -/
def memberOf (value : Step Json) : Step (String × Json)
  | '"' :: cs =>
    match stringTail [] cs with
    | none => none
    | some (name, rest) =>
      match skipBlanks rest with
      | ':' :: rest => (value (skipBlanks rest)).map fun (v, rest) => ((name, v), rest)
      | _ => none
  | _ => none

/-- A value at most `depth` deep that begins at the first character of the text. -/
def value : Nat → Step Json
  | 0, _ => none
  | depth + 1, cs =>
    match cs with
    | 'n' :: 'u' :: 'l' :: 'l' :: rest => some (.null, rest)
    | 't' :: 'r' :: 'u' :: 'e' :: rest => some (.bool true, rest)
    | 'f' :: 'a' :: 'l' :: 's' :: 'e' :: rest => some (.bool false, rest)
    | '"' :: rest => (stringTail [] rest).map fun (s, rest) => (.string s, rest)
    | '[' :: rest =>
      (sequenceItems ']' (value depth) rest).map fun (xs, rest) => (.array xs, rest)
    | '{' :: rest =>
      (sequenceItems '}' (memberOf (value depth)) rest).map fun (ms, rest) => (.object ms, rest)
    | cs => (number cs).map fun (n, rest) => (.number n, rest)

/-- How deep values may nest. -/
def maxDepth : Nat := 128

end Reader

/-- The value that a text writes. -/
def parse? (text : String) : Option Json :=
  match Reader.value Reader.maxDepth (Reader.skipBlanks text.toList) with
  | some (v, rest) => if (Reader.skipBlanks rest).isEmpty then some v else none
  | none => none

end Recast.Json
