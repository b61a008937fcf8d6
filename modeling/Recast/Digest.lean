/-
  Digest.lean --- the SHA-256 digest of a byte sequence.
-/
import Recast.Instances
import Recast.Text.Digit

set_option autoImplicit false

namespace Recast

/-- A content digest, written as 64 hexadecimal digits. -/
structure Digest where
  hex : String
  deriving DecidableEq, Inhabited

namespace Digest

/-- The first 32 bits of the fractional parts of the cube roots of the first 64 primes. -/
def roundConstants : Array UInt32 := #[
  0x428a2f98, 0x71374491, 0xb5c0fbcf, 0xe9b5dba5, 0x3956c25b, 0x59f111f1, 0x923f82a4, 0xab1c5ed5,
  0xd807aa98, 0x12835b01, 0x243185be, 0x550c7dc3, 0x72be5d74, 0x80deb1fe, 0x9bdc06a7, 0xc19bf174,
  0xe49b69c1, 0xefbe4786, 0x0fc19dc6, 0x240ca1cc, 0x2de92c6f, 0x4a7484aa, 0x5cb0a9dc, 0x76f988da,
  0x983e5152, 0xa831c66d, 0xb00327c8, 0xbf597fc7, 0xc6e00bf3, 0xd5a79147, 0x06ca6351, 0x14292967,
  0x27b70a85, 0x2e1b2138, 0x4d2c6dfc, 0x53380d13, 0x650a7354, 0x766a0abb, 0x81c2c92e, 0x92722c85,
  0xa2bfe8a1, 0xa81a664b, 0xc24b8b70, 0xc76c51a3, 0xd192e819, 0xd6990624, 0xf40e3585, 0x106aa070,
  0x19a4c116, 0x1e376c08, 0x2748774c, 0x34b0bcb5, 0x391c0cb3, 0x4ed8aa4a, 0x5b9cca4f, 0x682e6ff3,
  0x748f82ee, 0x78a5636f, 0x84c87814, 0x8cc70208, 0x90befffa, 0xa4506ceb, 0xbef9a3f7, 0xc67178f2]

/-- The first 32 bits of the fractional parts of the square roots of the first eight primes. -/
def initialState : Array UInt32 := #[
  0x6a09e667, 0xbb67ae85, 0x3c6ef372, 0xa54ff53a, 0x510e527f, 0x9b05688c, 0x1f83d9ab, 0x5be0cd19]

/-- A word turned to the right. -/
def rotate (w : UInt32) (n : UInt32) : UInt32 := (w >>> n) ||| (w <<< (32 - n))

/-- The message followed by a one bit, zeros and its length in bits, in whole blocks. -/
def padded (message : List UInt8) : List UInt8 :=
  let size := message.length
  let zeros := (55 + 64 - size % 64) % 64
  let bits := size * 8
  message ++ 0x80 :: List.replicate zeros 0 ++
    (List.range 8).map fun i => (bits / 256 ^ (7 - i)).toUInt8

/-- The big-endian words of a byte sequence. -/
def words : List UInt8 → List UInt32
  | a :: b :: c :: d :: rest =>
    (a.toUInt32 <<< 24 ||| b.toUInt32 <<< 16 ||| c.toUInt32 <<< 8 ||| d.toUInt32) :: words rest
  | _ => []

/-- The sixteen words of a block extended to the words of the 64 rounds. -/
def schedule (block : Array UInt32) : Array UInt32 :=
  (List.range 48).foldl (fun w i =>
    let a := w.getD (i + 1) 0
    let b := w.getD (i + 14) 0
    let s0 := rotate a 7 ^^^ rotate a 18 ^^^ (a >>> 3)
    let s1 := rotate b 17 ^^^ rotate b 19 ^^^ (b >>> 10)
    w.push (w.getD i 0 + s0 + w.getD (i + 9) 0 + s1)) block

/-- One round on the eight working words. -/
def round (w : Array UInt32) (s : Array UInt32) (i : Nat) : Array UInt32 :=
  let word (k : Nat) : UInt32 := s.getD k 0
  let a := word 0
  let e := word 4
  let s1 := rotate e 6 ^^^ rotate e 11 ^^^ rotate e 25
  let choice := (e &&& word 5) ^^^ (e.complement &&& word 6)
  let t1 := word 7 + s1 + choice + roundConstants.getD i 0 + w.getD i 0
  let s0 := rotate a 2 ^^^ rotate a 13 ^^^ rotate a 22
  let majority := (a &&& word 1) ^^^ (a &&& word 2) ^^^ (word 1 &&& word 2)
  #[t1 + s0 + majority, a, word 1, word 2, word 3 + t1, e, word 5, word 6]

/-- The state after one more block. -/
def absorb (state : Array UInt32) (block : Array UInt32) : Array UInt32 :=
  let w := schedule block
  let mixed := (List.range 64).foldl (round w) state
  (List.range 8).foldl (fun s i => s.push (state.getD i 0 + mixed.getD i 0)) #[]

/-- The state after the blocks of a word sequence. -/
def absorbAll (state : Array UInt32) (ws : List UInt32) : Array UInt32 :=
  if ws.length < 16 then state
  else absorbAll (absorb state (ws.take 16).toArray) (ws.drop 16)
termination_by ws.length
decreasing_by simp only [List.length_drop]; omega

/-- The bytes of a word. -/
def wordBytes (w : UInt32) : List UInt8 :=
  [(w >>> 24).toUInt8, (w >>> 16).toUInt8, (w >>> 8).toUInt8, w.toUInt8]

/-- The 32 bytes of the digest of a message. -/
def sum (message : List UInt8) : List UInt8 :=
  (absorbAll initialState (words (padded message))).toList.flatMap wordBytes

/-- A byte as two hexadecimal digits. -/
def hexByte (b : UInt8) : List Char := [Text.hexDigit (b.toNat / 16), Text.hexDigit (b.toNat % 16)]

/-- The digest of a byte sequence. -/
def ofList (message : List UInt8) : Digest := ⟨String.ofList ((sum message).flatMap hexByte)⟩

/-- The digest of bytes. -/
def ofBytes (message : ByteArray) : Digest := ofList message.toList

/-- The digest of the UTF-8 form of a string. -/
def ofString (message : String) : Digest := ofBytes message.toUTF8

end Digest

end Recast
