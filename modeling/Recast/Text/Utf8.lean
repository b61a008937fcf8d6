/-
  Text/Utf8.lean --- bytes as text.

  Reading cuts the bytes into characters and broken pieces.  A broken piece is the longest run of
  bytes that begins a character without finishing it, and at least one byte.
-/

set_option autoImplicit false

namespace Recast.Text.Utf8

/-- What stands at one place of a byte sequence. -/
inductive Piece where
  | char (c : Char)
  | broken
  deriving DecidableEq

/-- A byte that continues a character. -/
def isTail (b : UInt8) : Bool := 0x80 ≤ b && b ≤ 0xBF

/-- A second byte that may follow the first byte of a character of three bytes. -/
def isSecondOfThree (first second : UInt8) : Bool :=
  if first == 0xE0 then 0xA0 ≤ second && second ≤ 0xBF
  else if first == 0xED then 0x80 ≤ second && second ≤ 0x9F
  else isTail second

/-- A second byte that may follow the first byte of a character of four bytes. -/
def isSecondOfFour (first second : UInt8) : Bool :=
  if first == 0xF0 then 0x90 ≤ second && second ≤ 0xBF
  else if first == 0xF4 then 0x80 ≤ second && second ≤ 0x8F
  else isTail second

/-- The payload of a continuing byte. -/
def tailBits (b : UInt8) : Nat := b.toNat % 0x40

/-- The character of a first byte and a number of continuing bytes. -/
def joined (first : Nat) (tails : List UInt8) : Char :=
  Char.ofNat (tails.foldl (fun n b => n * 0x40 + tailBits b) first)

/-- The piece that begins with a byte, and the number of its bytes. -/
def headPiece (a : UInt8) (rest : List UInt8) : Piece × Nat :=
  if a < 0x80 then (.char (Char.ofNat a.toNat), 1)
  else if 0xC2 ≤ a && a ≤ 0xDF then
    match rest with
    | b :: _ => if isTail b then (.char (joined (a.toNat % 0x20) [b]), 2) else (.broken, 1)
    | [] => (.broken, 1)
  else if 0xE0 ≤ a && a ≤ 0xEF then
    match rest with
    | b :: c :: _ =>
      if !isSecondOfThree a b then (.broken, 1)
      else if isTail c then (.char (joined (a.toNat % 0x10) [b, c]), 3)
      else (.broken, 2)
    | [b] => (.broken, if isSecondOfThree a b then 2 else 1)
    | [] => (.broken, 1)
  else if 0xF0 ≤ a && a ≤ 0xF4 then
    match rest with
    | b :: c :: d :: _ =>
      if !isSecondOfFour a b then (.broken, 1)
      else if !isTail c then (.broken, 2)
      else if isTail d then (.char (joined (a.toNat % 8) [b, c, d]), 4)
      else (.broken, 3)
    | [b, c] => (.broken, if !isSecondOfFour a b then 1 else if isTail c then 3 else 2)
    | [b] => (.broken, if isSecondOfFour a b then 2 else 1)
    | [] => (.broken, 1)
  else (.broken, 1)

/-- The pieces of a byte sequence, each with the number of its bytes. -/
def pieces : List UInt8 → List (Piece × Nat)
  | [] => []
  | a :: rest => headPiece a rest :: pieces (rest.drop ((headPiece a rest).2 - 1))
termination_by bytes => bytes.length
decreasing_by simp only [List.length_drop, List.length_cons]; omega

/-- The character a piece shows as. -/
def Piece.shown : Piece → Char
  | .char c => c
  | .broken => Char.ofNat 0xFFFD

/-- The text with a replacement character for each broken piece. -/
def decodeLossy (bytes : ByteArray) : String :=
  String.ofList ((pieces bytes.toList).map fun piece => piece.1.shown)

/-- The characters of a piece list without broken pieces. -/
def wholeChars : List (Piece × Nat) → Option (List Char)
  | [] => some []
  | (.char c, _) :: rest => (wholeChars rest).map (c :: ·)
  | (.broken, _) :: _ => none

/-- The text of bytes that are valid UTF-8. -/
def decode? (bytes : ByteArray) : Option String :=
  (wholeChars (pieces bytes.toList)).map String.ofList

/-- The characters in front of the first broken piece. -/
def leadingChars : List (Piece × Nat) → List Char
  | (.char c, _) :: rest => c :: leadingChars rest
  | _ => []

/-- The characters that can be read before the bytes stop being UTF-8. -/
def readablePart (bytes : ByteArray) : List Char := leadingChars (pieces bytes.toList)

end Recast.Text.Utf8
