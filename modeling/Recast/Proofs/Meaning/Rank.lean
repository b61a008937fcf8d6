/-
  Proofs/Meaning/Rank.lean --- the total order of scores.

  A score is ranked by the place of its bit pattern.  The rank of a number grows with the number, and
  negative zero stands just below zero (`orderOfBits_lt_iff`); a score that is no number is ranked
  above all numbers or below all of them (`rank_of_isNaN_cases`).  Places are read off the parts of a
  single-precision number: `Placed` says which place a number with a given sign, mantissa and
  exponent has.
-/
import Mathlib
import Recast.Meaning.Records

set_option autoImplicit false

namespace Recast.Meaning

open Float.Model
open Float.Model.UnpackedFloat (Sign)

/-! ## Places of numbers -/

/-- The place of a number with a sign whose bits without the sign are a given number. -/
def signedPlace (sign : Sign) (magnitude : Int) : Int :=
  match sign with
  | .positive => magnitude
  | .negative => -magnitude - 1

/-- The bits of an infinity without the sign. -/
def infinityBits : Int := 255 * 2 ^ 23

/-- The places of the numbers, by their parts. -/
inductive Placed : UnpackedFloat → Int → Prop where
  | infinity (sign : Sign) : Placed (.infinity sign) (signedPlace sign infinityBits)
  | zero (sign : Sign) : Placed (.zero sign) (signedPlace sign 0)
  | finite (sign : Sign) {mantissa : Nat} {exponent magnitude : Int} (hpos : 0 < mantissa)
      (hmagnitude : magnitude = (exponent + 149) * 2 ^ 23 + mantissa)
      (hmantissa : mantissa < 2 ^ 24) (hexponent : -149 ≤ exponent)
      (hnormal : mantissa < 2 ^ 23 → exponent = -149) (hfinite : magnitude < infinityBits) :
      Placed (.finite sign mantissa exponent hpos) (signedPlace sign magnitude)

variable (b : BitVec Format.binary32.numBits)

theorem toNat_unpackExponent :
    (UnpackedFloat.unpackExponent b).toNat = b.toNat / 2 ^ 23 % 2 ^ 8 := by
  rw [UnpackedFloat.unpackExponent, BitVec.toNat_cast, BitVec.extractLsb_toNat,
    Nat.shiftRight_eq_div_pow]
  rfl

theorem toNat_unpackMantissa : (UnpackedFloat.unpackMantissa b).toNat = b.toNat % 2 ^ 23 := by
  rw [UnpackedFloat.unpackMantissa, BitVec.toNat_cast, BitVec.extractLsb_toNat, Nat.shiftRight_zero]
  rfl

theorem toNat_unpackSign : (UnpackedFloat.unpackSign b).toNat = b.toNat / 2 ^ 31 % 2 := by
  rw [UnpackedFloat.unpackSign, BitVec.toNat_cast, BitVec.extractLsb_toNat,
    Nat.shiftRight_eq_div_pow]
  rfl

theorem toNat_full_mantissa :
    (1#1 ++ UnpackedFloat.unpackMantissa b).toNat = 2 ^ 23 + b.toNat % 2 ^ 23 := by
  rw [BitVec.toNat_append, toNat_unpackMantissa,
    ← Nat.shiftLeft_add_eq_or_of_lt (Nat.mod_lt _ (by decide))]
  rfl

theorem signedPlace_unpackSign : signedPlace (Sign.ofBitVec (UnpackedFloat.unpackSign b))
    (b.toNat % 2 ^ 31 : Nat) = orderOfBits b.toNat := by
  have hlt : b.toNat < 2 ^ 32 := b.isLt
  have hsign : UnpackedFloat.unpackSign b = 0#1 ↔ b.toNat < 2 ^ 31 := by
    rw [← BitVec.toNat_inj, toNat_unpackSign]
    change _ = 0 ↔ _
    omega
  unfold Sign.ofBitVec orderOfBits signBit
  simp only [hsign]
  split
  · change ((b.toNat % 2 ^ 31 : Nat) : Int) = b.toNat
    omega
  · change -((b.toNat % 2 ^ 31 : Nat) : Int) - 1 = -((b.toNat : Int) - (2 ^ 31 : Nat)) - 1
    omega

/-- A bit pattern of a number has the place of the number. -/
theorem placed_unpack (h : UnpackedFloat.unpack Format.binary32 b ≠ .notANumber) :
    Placed (UnpackedFloat.unpack Format.binary32 b) (orderOfBits b.toNat) := by
  have hlt : b.toNat < 2 ^ 32 := b.isLt
  have hbias : Format.binary32.exponentBias = 127 := rfl
  have hfull := toNat_full_mantissa b
  rw [← signedPlace_unpackSign]
  revert h
  unfold UnpackedFloat.unpack
  dsimp only
  simp only [← BitVec.toNat_inj, toNat_unpackExponent, toNat_unpackMantissa]
  split
  · next hexponent =>
    change _ = 255 at hexponent
    split
    · next hmantissa =>
      change _ = 0 at hmantissa
      intro _
      have hbits : ((b.toNat % 2 ^ 31 : Nat) : Int) = infinityBits := by
        unfold infinityBits
        omega
      rw [hbits]
      exact .infinity _
    · exact fun h => absurd rfl h
  · next hnotInfinite =>
    change ¬_ = 255 at hnotInfinite
    have hfinite : ((b.toNat % 2 ^ 31 : Nat) : Int) < infinityBits := by
      unfold infinityBits
      omega
    split
    · next hexponent =>
      change _ = 0 at hexponent
      split
      · next hmantissa =>
        change _ = 0 at hmantissa
        intro _
        have hbits : ((b.toNat % 2 ^ 31 : Nat) : Int) = 0 := by omega
        rw [hbits]
        exact .zero _
      · intro _
        exact .finite _ _ (by omega) (by omega) (by omega) (by omega) hfinite
    · next hexponent =>
      change ¬_ = 0 at hexponent
      intro _
      exact .finite _ _ (by omega) (by omega) (by omega) (by omega) hfinite

/-! ## Numbers by their places -/

theorem compare_finite_eq_lt_iff {e e' : Int} {m m' : Nat} :
    (compare e e').then (compare m m') = .lt ↔ e < e' ∨ e = e' ∧ m < m' := by
  rw [Ordering.then_eq_lt, Int.compare_eq_lt, Int.compare_eq_eq, Nat.compare_eq_lt]

theorem compare_finite_eq_gt_iff {e e' : Int} {m m' : Nat} :
    (compare e e').then (compare m m') = .gt ↔ e' < e ∨ e = e' ∧ m' < m := by
  rw [Ordering.then_eq_gt, Int.compare_eq_gt, Int.compare_eq_eq, Nat.compare_eq_gt]

/-- Numbers are compared by their places, but for the two zeros. -/
theorem Placed.lt_iff {u v : UnpackedFloat} {i j : Int} (hu : Placed u i) (hv : Placed v j) :
    i < j ↔ u.compare v = some .lt ∨ i = -1 ∧ j = 0 := by
  cases hu with
  | infinity sign =>
    cases hv with
    | infinity sign' => cases sign <;> cases sign' <;> decide
    | zero sign' => cases sign <;> cases sign' <;> decide
    | finite sign' _ _ _ _ _ hfinite =>
      unfold infinityBits at *
      cases sign <;> cases sign' <;> simp [UnpackedFloat.compare, signedPlace] <;> omega
  | zero sign =>
    cases hv with
    | infinity sign' => cases sign <;> cases sign' <;> decide
    | zero sign' => cases sign <;> cases sign' <;> decide
    | finite sign' _ _ _ _ _ hfinite =>
      cases sign <;> cases sign' <;> simp [UnpackedFloat.compare, signedPlace] <;> omega
  | finite sign _ _ _ _ _ hfinite =>
    cases hv with
    | infinity sign' =>
      unfold infinityBits at *
      cases sign <;> cases sign' <;> simp [UnpackedFloat.compare, signedPlace] <;> omega
    | zero sign' =>
      cases sign <;> cases sign' <;> simp [UnpackedFloat.compare, signedPlace] <;> omega
    | finite sign' _ _ _ _ _ hfinite =>
      cases sign <;> cases sign' <;>
        simp [UnpackedFloat.compare, signedPlace, compare_finite_eq_lt_iff,
          compare_finite_eq_gt_iff] <;> omega

theorem Placed.le {u : UnpackedFloat} {i : Int} (h : Placed u i) :
    -infinityBits - 1 ≤ i ∧ i ≤ infinityBits := by
  cases h with
  | infinity sign => cases sign <;> decide
  | zero sign => cases sign <;> decide
  | finite sign _ _ _ _ _ hfinite =>
    unfold infinityBits at *
    cases sign <;> simp only [signedPlace] <;> omega

/-! ## Scores -/

theorem lt_iff_compare {s t : Float32} :
    s < t ↔ s.toModel.unpack.compare t.toModel.unpack = some .lt := by
  change Float32.lt s t = true ↔ _
  rw [Float32.lt, decide_eq_true_iff]
  exact beq_iff_eq

theorem isNaN_eq_true_iff {s : Float32} :
    s.isNaN = true ↔ s.toModel.unpack = .notANumber := by
  change s.toModel.unpack.isNaN = true ↔ _
  cases s.toModel.unpack <;> simp [UnpackedFloat.isNaN]

/-- Numbers are what is equal to itself. -/
theorem beq_self_eq (s : Float32) : (s == s) = !s.isNaN := by
  change (s.toModel.unpack.compare s.toModel.unpack == some .eq) = !s.toModel.unpack.isNaN
  cases s.toModel.unpack with
  | notANumber => rfl
  | infinity sign => cases sign <;> rfl
  | zero sign => rfl
  | finite sign mantissa exponent hpos =>
    cases sign <;> simp [UnpackedFloat.compare, UnpackedFloat.isNaN]

theorem placed_of_number {s : Float32} (h : s.isNaN = false) :
    Placed s.toModel.unpack (orderOfBits s.toBits.toNat) :=
  placed_unpack s.toBits.toBitVec fun hnan =>
    Bool.eq_false_iff.1 h (isNaN_eq_true_iff.2 hnan)

/-- What is no number has one bit pattern only. -/
theorem toNat_toBits_of_isNaN {s : Float32} (h : s.isNaN = true) :
    s.toBits.toNat = 0x7fc00000 := by
  have hnan : UnpackedFloat.unpack Format.binary32 s.toBits.toBitVec = .notANumber :=
    isNaN_eq_true_iff.1 h
  have hbits : s.toBits.toBitVec = UnpackedFloat.packedNaN Format.binary32 := by
    revert hnan
    unfold UnpackedFloat.unpack
    dsimp only
    intro hnan
    split at hnan
    · next hexponent =>
      split at hnan
      · cases hnan
      · next hmantissa => exact s.toModel.valid.eq_packedNaN hexponent hmantissa
    · split at hnan
      · split at hnan <;> cases hnan
      · cases hnan
  exact congrArg BitVec.toNat hbits

theorem toBits_injective {s t : Float32} (h : s.toBits.toNat = t.toBits.toNat) : s = t := by
  obtain ⟨⟨bits, _⟩⟩ := s
  obtain ⟨⟨bits', _⟩⟩ := t
  cases UInt32.toNat_inj.1 h
  rfl

theorem orderOfBits_inj {n m : Nat} (hn : n < 2 ^ 32) (hm : m < 2 ^ 32)
    (h : orderOfBits n = orderOfBits m) : n = m := by
  unfold orderOfBits signBit at h
  split at h <;> split at h <;> omega

/-- A score has the place of a bit pattern if that is its own. -/
theorem orderOfBits_toBits_eq_iff (s t : Float32) :
    orderOfBits s.toBits.toNat = orderOfBits t.toBits.toNat ↔ s = t := by
  refine ⟨fun h => toBits_injective ?_, fun h => h ▸ rfl⟩
  exact orderOfBits_inj s.toBits.toNat_lt t.toBits.toNat_lt h

/-- Numbers are placed by their size, and negative zero below zero. -/
theorem orderOfBits_lt_iff {s t : Float32} (hs : s.isNaN = false) (ht : t.isNaN = false) :
    orderOfBits s.toBits.toNat < orderOfBits t.toBits.toNat ↔ s < t ∨ s = -0.0 ∧ t = 0.0 := by
  have hnegative : orderOfBits (-0.0 : Float32).toBits.toNat = -1 := by decide
  have hzero : orderOfBits (0.0 : Float32).toBits.toNat = 0 := by decide
  rw [(placed_of_number hs).lt_iff (placed_of_number ht), lt_iff_compare, ← hnegative, ← hzero,
    orderOfBits_toBits_eq_iff, orderOfBits_toBits_eq_iff]

/-! ## Ranks -/

variable {v w : Vector} {s : Float32}

theorem rank_of_number (h : s.isNaN = false) : rank v w s = orderOfBits s.toBits.toNat := by
  rw [rank, beq_self_eq, h]
  rfl

/-- What is no number is ranked above all numbers if one of the vectors holds such a thing, and below
them if not. -/
theorem rank_of_isNaN (h : s.isNaN = true) : rank v w s =
    if v.any (fun x => x != x) || w.any (fun x => x != x) then 0x7fc00000 else -0x7fc00000 - 1 := by
  rw [rank, beq_self_eq, h, toNat_toBits_of_isNaN h, Bool.not_true, Bool.false_or]
  rfl

theorem rank_of_isNaN_cases (h : s.isNaN = true) :
    rank v w s = 0x7fc00000 ∨ rank v w s = -0x7fc00000 - 1 := by
  rw [rank_of_isNaN h]
  split
  · exact .inl rfl
  · exact .inr rfl

/-- Ranks that order scores totally: numbers by their size, with negative zero below zero; what is no
number above all numbers or below all of them. -/
structure Ranked (s t : Float32) (i j : Int) : Prop where
  numbers : s.isNaN = false → t.isNaN = false → (i < j ↔ s < t ∨ s = -0.0 ∧ t = 0.0)
  above : s.isNaN = true → t.isNaN = false → 0 ≤ i → j < i
  below : s.isNaN = true → t.isNaN = false → i < 0 → i < j
  alike : s.isNaN = true → t.isNaN = true → (i = j ↔ (0 ≤ i ↔ 0 ≤ j))

theorem ranked_rank (v w v' w' : Vector) (s t : Float32) :
    Ranked s t (rank v w s) (rank v' w' t) where
  numbers hs ht := by
    rw [rank_of_number hs, rank_of_number ht, orderOfBits_lt_iff hs ht]
  above hs ht hpos := by
    have hle := (placed_of_number ht).le.2
    have hcases := rank_of_isNaN_cases (v := v) (w := w) hs
    rw [rank_of_number ht]
    unfold infinityBits at hle
    omega
  below hs ht hneg := by
    have hle := (placed_of_number ht).le.1
    have hcases := rank_of_isNaN_cases (v := v) (w := w) hs
    rw [rank_of_number ht]
    unfold infinityBits at hle
    omega
  alike hs ht := by
    have hcases := rank_of_isNaN_cases (v := v) (w := w) hs
    have hcases' := rank_of_isNaN_cases (v := v') (w := w') ht
    omega

end Recast.Meaning
