/-
  Proofs/Text/Utf8.lean --- the bytes of a text read back as the text.
-/
import Recast.Text.Utf8

set_option autoImplicit false

namespace Recast.Text.Utf8

/-! ## One character -/

theorem toNat_ofNat_byte {n : Nat} (h : n < 256) : (UInt8.ofNat n).toNat = n := by
  rw [UInt8.toNat_ofNat', Nat.mod_eq_of_lt h]

theorem isTail_ofNat (n : Nat) : isTail (UInt8.ofNat (n % 0x40 + 0x80)) = true := by
  have hn := toNat_ofNat_byte (n := n % 0x40 + 0x80) (by omega)
  simp only [isTail, UInt8.le_iff_toNat_le, hn, Bool.and_eq_true, decide_eq_true_eq]
  exact ⟨by simp, by simp; omega⟩

theorem tailBits_ofNat (n : Nat) : tailBits (UInt8.ofNat (n % 0x40 + 0x80)) = n % 0x40 := by
  rw [tailBits, toNat_ofNat_byte (by omega)]
  omega

/-- The value of the bits of a continuing byte. -/
theorem joined_eq (first : Nat) (tails : List Nat) :
    joined first (tails.map fun n => UInt8.ofNat (n % 0x40 + 0x80)) =
      Char.ofNat (tails.foldl (fun v n => v * 0x40 + n % 0x40) first) := by
  rw [joined, List.foldl_map]
  simp only [tailBits_ofNat]

theorem isSecondOfThree_ofNat {v : Nat} (hlow : 0x800 ≤ v) (hhigh : v ≤ 0xFFFF)
    (hvalid : v < 0xD800 ∨ 0xDFFF < v) :
    isSecondOfThree (UInt8.ofNat (v / 4096 % 0x10 + 0xE0)) (UInt8.ofNat (v / 64 % 0x40 + 0x80)) =
      true := by
  have ha := toNat_ofNat_byte (n := v / 4096 % 0x10 + 0xE0) (by omega)
  have hb := toNat_ofNat_byte (n := v / 64 % 0x40 + 0x80) (by omega)
  have htail := isTail_ofNat (v / 64)
  unfold isSecondOfThree
  split
  · next hE0 =>
    rw [beq_iff_eq, ← UInt8.toNat_inj, ha] at hE0
    simp only [UInt8.le_iff_toNat_le, hb, Bool.and_eq_true, decide_eq_true_eq]
    simp at hE0 ⊢
    omega
  · split
    · next hED =>
      rw [beq_iff_eq, ← UInt8.toNat_inj, ha] at hED
      simp only [UInt8.le_iff_toNat_le, hb, Bool.and_eq_true, decide_eq_true_eq]
      simp at hED ⊢
      omega
    · exact htail

theorem isSecondOfFour_ofNat {v : Nat} (hlow : 0x10000 ≤ v) (hhigh : v < 0x110000) :
    isSecondOfFour (UInt8.ofNat (v / 262144 % 8 + 0xF0)) (UInt8.ofNat (v / 4096 % 0x40 + 0x80)) =
      true := by
  have ha := toNat_ofNat_byte (n := v / 262144 % 8 + 0xF0) (by omega)
  have hb := toNat_ofNat_byte (n := v / 4096 % 0x40 + 0x80) (by omega)
  have htail := isTail_ofNat (v / 4096)
  unfold isSecondOfFour
  split
  · next hF0 =>
    rw [beq_iff_eq, ← UInt8.toNat_inj, ha] at hF0
    simp only [UInt8.le_iff_toNat_le, hb, Bool.and_eq_true, decide_eq_true_eq]
    simp at hF0 ⊢
    omega
  · split
    · next hF4 =>
      rw [beq_iff_eq, ← UInt8.toNat_inj, ha] at hF4
      simp only [UInt8.le_iff_toNat_le, hb, Bool.and_eq_true, decide_eq_true_eq]
      simp at hF4 ⊢
      omega
    · exact htail

/-- Whether a byte lies between two bounds, in terms of its number. -/
theorem between_ofNat {n : Nat} (h : n < 256) (low high : UInt8) :
    (low ≤ UInt8.ofNat n && UInt8.ofNat n ≤ high) = decide (low.toNat ≤ n ∧ n ≤ high.toNat) := by
  simp only [UInt8.le_iff_toNat_le, toNat_ofNat_byte h, Bool.decide_and]

theorem lt_ofNat {n : Nat} (h : n < 256) (bound : UInt8) :
    (UInt8.ofNat n < bound) = (n < bound.toNat) := by
  rw [UInt8.lt_iff_toNat_lt, toNat_ofNat_byte h]

theorem headPiece_one {v : Nat} (h : v ≤ 0x7F) (rest : List UInt8) :
    headPiece (UInt8.ofNat v) rest = (.char (Char.ofNat v), 1) := by
  have hlow : v < UInt8.toNat 0x80 := by simp; omega
  have hn : v < 256 := by omega
  simp only [headPiece, lt_ofNat hn, if_pos hlow, toNat_ofNat_byte hn]

theorem headPiece_two {v : Nat} (hlow : 0x80 ≤ v) (hhigh : v ≤ 0x7FF) (rest : List UInt8) :
    headPiece (UInt8.ofNat (v / 64 % 0x20 + 0xC0))
        (UInt8.ofNat (v % 0x40 + 0x80) :: rest) = (.char (Char.ofNat v), 2) := by
  have hn : v / 64 % 0x20 + 0xC0 < 256 := by omega
  have hlow : ¬v / 64 % 0x20 + 0xC0 < UInt8.toNat 0x80 := by simp
  have hfirst : UInt8.toNat 0xC2 ≤ v / 64 % 0x20 + 0xC0 ∧
      v / 64 % 0x20 + 0xC0 ≤ UInt8.toNat 0xDF := by
    simp
    omega
  have hjoined := joined_eq ((v / 64 % 0x20 + 0xC0) % 0x20) [v]
  have hvalue : (v / 64 % 0x20 + 0xC0) % 0x20 * 0x40 + v % 0x40 = v := by omega
  simp only [List.map_cons, List.map_nil, List.foldl_cons, List.foldl_nil, hvalue] at hjoined
  simp only [headPiece, lt_ofNat hn, if_neg hlow, between_ofNat hn, hfirst, and_self, decide_true,
    if_true, isTail_ofNat, toNat_ofNat_byte hn, hjoined]

theorem headPiece_three {v : Nat} (hlow : 0x800 ≤ v) (hhigh : v ≤ 0xFFFF)
    (hvalid : v < 0xD800 ∨ 0xDFFF < v) (rest : List UInt8) :
    headPiece (UInt8.ofNat (v / 4096 % 0x10 + 0xE0))
        (UInt8.ofNat (v / 64 % 0x40 + 0x80) :: UInt8.ofNat (v % 0x40 + 0x80) :: rest) =
      (.char (Char.ofNat v), 3) := by
  have hsecond := isSecondOfThree_ofNat hlow hhigh hvalid
  have hn : v / 4096 % 0x10 + 0xE0 < 256 := by omega
  have hlow : ¬v / 4096 % 0x10 + 0xE0 < UInt8.toNat 0x80 := by simp
  have hnotTwo : ¬(UInt8.toNat 0xC2 ≤ v / 4096 % 0x10 + 0xE0 ∧
      v / 4096 % 0x10 + 0xE0 ≤ UInt8.toNat 0xDF) := by
    simp
  have hfirst : UInt8.toNat 0xE0 ≤ v / 4096 % 0x10 + 0xE0 ∧
      v / 4096 % 0x10 + 0xE0 ≤ UInt8.toNat 0xEF := by
    simp
    omega
  have hjoined := joined_eq ((v / 4096 % 0x10 + 0xE0) % 0x10) [v / 64, v]
  have hvalue : ((v / 4096 % 0x10 + 0xE0) % 0x10 * 0x40 + v / 64 % 0x40) * 0x40 + v % 0x40 = v := by
    omega
  simp only [List.map_cons, List.map_nil, List.foldl_cons, List.foldl_nil, hvalue] at hjoined
  simp only [headPiece, lt_ofNat hn, if_neg hlow, between_ofNat hn, hnotTwo, hfirst, and_self,
    decide_true, decide_false, Bool.false_eq_true, if_false, if_true, hsecond, Bool.not_true,
    isTail_ofNat, toNat_ofNat_byte hn, hjoined]

theorem headPiece_four {v : Nat} (hlow : 0x10000 ≤ v) (hhigh : v < 0x110000) (rest : List UInt8) :
    headPiece (UInt8.ofNat (v / 262144 % 8 + 0xF0))
        (UInt8.ofNat (v / 4096 % 0x40 + 0x80) :: UInt8.ofNat (v / 64 % 0x40 + 0x80) ::
          UInt8.ofNat (v % 0x40 + 0x80) :: rest) =
      (.char (Char.ofNat v), 4) := by
  have hsecond := isSecondOfFour_ofNat hlow hhigh
  have hn : v / 262144 % 8 + 0xF0 < 256 := by omega
  have hlow : ¬v / 262144 % 8 + 0xF0 < UInt8.toNat 0x80 := by simp
  have hnotTwo : ¬(UInt8.toNat 0xC2 ≤ v / 262144 % 8 + 0xF0 ∧
      v / 262144 % 8 + 0xF0 ≤ UInt8.toNat 0xDF) := by
    simp
  have hnotThree : ¬(UInt8.toNat 0xE0 ≤ v / 262144 % 8 + 0xF0 ∧
      v / 262144 % 8 + 0xF0 ≤ UInt8.toNat 0xEF) := by
    simp
  have hfirst : UInt8.toNat 0xF0 ≤ v / 262144 % 8 + 0xF0 ∧
      v / 262144 % 8 + 0xF0 ≤ UInt8.toNat 0xF4 := by
    simp
    omega
  have hjoined := joined_eq ((v / 262144 % 8 + 0xF0) % 8) [v / 4096, v / 64, v]
  have hvalue : (((v / 262144 % 8 + 0xF0) % 8 * 0x40 + v / 4096 % 0x40) * 0x40 +
      v / 64 % 0x40) * 0x40 + v % 0x40 = v := by
    omega
  simp only [List.map_cons, List.map_nil, List.foldl_cons, List.foldl_nil, hvalue] at hjoined
  simp only [headPiece, lt_ofNat hn, if_neg hlow, between_ofNat hn, hnotTwo, hnotThree, hfirst,
    and_self, decide_true, decide_false, Bool.false_eq_true, if_false, if_true, hsecond,
    Bool.not_true, isTail_ofNat, toNat_ofNat_byte hn, hjoined]

/-- The bytes of a character are read as the character. -/
theorem headPiece_utf8EncodeChar (c : Char) (rest : List UInt8) :
    ∃ a tail, String.utf8EncodeChar c = a :: tail ∧
      headPiece a (tail ++ rest) = (.char c, tail.length + 1) := by
  have hvalid : c.val.toNat < 0xD800 ∨ 0xDFFF < c.val.toNat ∧ c.val.toNat < 0x110000 := c.valid
  have hchar : Char.ofNat c.val.toNat = c := Char.ofNat_toNat c
  unfold String.utf8EncodeChar
  dsimp only
  generalize c.val.toNat = v at hvalid hchar
  rw [← hchar]
  split
  · next h₁ => exact ⟨_, [], rfl, headPiece_one h₁ rest⟩
  · next h₁ =>
    split
    · next h₂ => exact ⟨_, _, rfl, headPiece_two (by omega) h₂ rest⟩
    · next h₂ =>
      split
      · next h₃ => exact ⟨_, _, rfl, headPiece_three (by omega) h₃ (by omega) rest⟩
      · next h₃ => exact ⟨_, _, rfl, headPiece_four (by omega) (by omega) rest⟩

/-! ## A text -/

theorem wholeChars_pieces (cs : List Char) :
    wholeChars (pieces (cs.flatMap String.utf8EncodeChar)) = some cs := by
  induction cs with
  | nil => simp [pieces, wholeChars]
  | cons c cs ih =>
    obtain ⟨a, tail, hbytes, hpiece⟩ :=
      headPiece_utf8EncodeChar c (cs.flatMap String.utf8EncodeChar)
    rw [List.flatMap_cons, hbytes, List.cons_append, pieces, hpiece, wholeChars,
      Nat.add_sub_cancel, List.drop_left, ih]
    rfl

/-- Where no piece is broken, the pieces show as their characters. -/
theorem shown_of_wholeChars {ps : List (Piece × Nat)} {cs : List Char}
    (h : wholeChars ps = some cs) : ps.map (fun piece => piece.1.shown) = cs := by
  induction ps generalizing cs with
  | nil => exact Option.some.inj h
  | cons piece ps ih =>
    obtain ⟨piece, size⟩ := piece
    cases piece with
    | broken => cases h
    | char c =>
      rw [wholeChars, Option.map_eq_some_iff] at h
      obtain ⟨rest, hrest, rfl⟩ := h
      rw [List.map_cons, ih hrest]
      rfl

theorem toList_loop (bs : ByteArray) (i : Nat) (r : List UInt8) :
    ByteArray.toList.loop bs i r = r.reverse ++ bs.data.toList.drop i := by
  generalize hn : bs.size - i = n
  induction n generalizing i r with
  | zero =>
    have hsize : bs.data.toList.length ≤ i := by
      rw [Array.length_toList]
      exact Nat.le_of_sub_eq_zero hn
    rw [ByteArray.toList.loop, if_neg (by omega), List.drop_eq_nil_of_le hsize, List.append_nil]
  | succ n ih =>
    have hi : i < bs.data.size := by
      have : bs.size = bs.data.size := rfl
      omega
    have hget : bs.get! i = bs.data.toList.get ⟨i, by simpa using hi⟩ := by
      cases bs
      simp [ByteArray.get!, hi]
    rw [ByteArray.toList.loop, if_pos (by omega), ih _ _ (by omega), hget, List.get_eq_getElem,
      List.reverse_cons, List.append_assoc, List.singleton_append, List.getElem_cons_drop]

theorem toList_eq (bs : ByteArray) : bs.toList = bs.data.toList := by
  rw [ByteArray.toList, toList_loop]
  rfl

theorem toList_toUTF8 (s : String) : s.toUTF8.toList = s.toList.flatMap String.utf8EncodeChar := by
  rw [String.toUTF8_eq_toByteArray, ← String.utf8Encode_toList, toList_eq, List.utf8Encode,
    List.toList_data_toByteArray]

/-- The bytes of a string are text, and the text is the string. -/
theorem decode?_toUTF8 (s : String) : decode? s.toUTF8 = some s := by
  rw [decode?, toList_toUTF8, wholeChars_pieces, Option.map_some, String.ofList_toList]

/-- Bytes that are text show as the text. -/
theorem decodeLossy_of_decode? {bytes : ByteArray} {s : String} (h : decode? bytes = some s) :
    decodeLossy bytes = s := by
  obtain ⟨cs, hcs, rfl⟩ := Option.map_eq_some_iff.1 h
  rw [decodeLossy, shown_of_wholeChars hcs]

/-- The bytes of a string show as the string. -/
@[simp] theorem decodeLossy_toUTF8 (s : String) : decodeLossy s.toUTF8 = s :=
  decodeLossy_of_decode? (decode?_toUTF8 s)

/-! ## Characters of one byte -/

theorem toNat_ofNat_of_ne {v : Nat} (h : Char.ofNat v ≠ '\x00') : (Char.ofNat v).toNat = v := by
  by_cases hvalid : v.isValidChar
  · rw [Char.ofNat, dif_pos hvalid]
    rfl
  · exact absurd (dif_neg hvalid) h

theorem le_of_isSecondOfThree {a b : UInt8} (ha : 0xE0 ≤ a.toNat ∧ a.toNat ≤ 0xEF)
    (h : isSecondOfThree a b = true) : 2 ≤ a.toNat % 0x10 * 0x40 + tailBits b := by
  by_cases hfirst : a = 0xE0
  · have hb : 0xA0 ≤ b.toNat ∧ b.toNat ≤ 0xBF := by
      simpa [isSecondOfThree, hfirst, UInt8.le_iff_toNat_le] using h
    unfold tailBits
    omega
  · have hne : a.toNat ≠ 0xE0 := fun heq => hfirst (UInt8.toNat_inj.1 heq)
    omega

theorem le_of_isSecondOfFour {a b : UInt8} (ha : 0xF0 ≤ a.toNat ∧ a.toNat ≤ 0xF4)
    (h : isSecondOfFour a b = true) : 1 ≤ a.toNat % 8 * 0x40 + tailBits b := by
  by_cases hfirst : a = 0xF0
  · have hb : 0x90 ≤ b.toNat ∧ b.toNat ≤ 0xBF := by
      simpa [isSecondOfFour, hfirst, UInt8.le_iff_toNat_le] using h
    unfold tailBits
    omega
  · have hne : a.toNat ≠ 0xF0 := fun heq => hfirst (UInt8.toNat_inj.1 heq)
    omega

theorem between_iff {b low high : UInt8} : (decide (low ≤ b) && decide (b ≤ high)) = true ↔
    low.toNat ≤ b.toNat ∧ b.toNat ≤ high.toNat := by
  rw [Bool.and_eq_true, decide_eq_true_iff, decide_eq_true_iff, UInt8.le_iff_toNat_le,
    UInt8.le_iff_toNat_le]

/-- The bytes of a character of several bytes give a number that one byte does not. -/
theorem headPiece_cases {a : UInt8} {rest : List UInt8} {c : Char} {n : Nat}
    (h : headPiece a rest = (.char c, n)) : (c = Char.ofNat a.toNat ∧ n = 1) ∨
      ∃ v, 0x80 ≤ v ∧ c = Char.ofNat v := by
  revert h
  fun_cases headPiece a rest
  -- A broken piece is no character.
  all_goals
    intro h
    cases h
  case case1.refl => exact .inl ⟨rfl, rfl⟩
  case case2.refl htwo b _ _ =>
    have hfirst : 0xC2 ≤ a.toNat ∧ a.toNat ≤ 0xDF := between_iff.1 htwo
    refine .inr ⟨a.toNat % 0x20 * 0x40 + tailBits b, ?_, rfl⟩
    omega
  case case6.refl hthree b c _ hsecond _ =>
    have hle := le_of_isSecondOfThree (between_iff.1 hthree) (by simpa using hsecond)
    refine .inr ⟨(a.toNat % 0x10 * 0x40 + tailBits b) * 0x40 + tailBits c, ?_, rfl⟩
    omega
  case case12.refl hfour b c d _ hsecond _ _ =>
    have hle := le_of_isSecondOfFour (between_iff.1 hfour) (by simpa using hsecond)
    refine .inr ⟨((a.toNat % 8 * 0x40 + tailBits b) * 0x40 + tailBits c) * 0x40 + tailBits d, ?_,
      rfl⟩
    omega

/-- The first byte of a piece that shows as a character of one byte. -/
theorem headPiece_shown {a : UInt8} {rest : List UInt8} {c : Char}
    (h : (headPiece a rest).1.shown = c) (hzero : c ≠ '\x00') (hc : c.toNat < 0x80) :
    a = UInt8.ofNat c.toNat ∧ (headPiece a rest).2 = 1 := by
  cases hpiece : headPiece a rest with
  | mk piece n =>
    rw [hpiece] at h
    cases piece with
    | broken =>
      have hbroken : c = Char.ofNat 0xFFFD := h.symm
      rw [hbroken] at hc
      exact absurd hc (by decide)
    | char d =>
      have hd : d = c := h
      have hnumber {v : Nat} (hv : d = Char.ofNat v) : c.toNat = v := by
        rw [← hd, hv, toNat_ofNat_of_ne (hv ▸ hd ▸ hzero)]
      rcases headPiece_cases hpiece with ⟨hv, rfl⟩ | ⟨v, hlarge, hv⟩
      · exact ⟨by rw [hnumber hv, UInt8.ofNat_toNat], rfl⟩
      · rw [hnumber hv] at hc
        omega

theorem headPiece_ofNat {c : Char} (hc : c.toNat < 0x80) (rest : List UInt8) :
    (headPiece (UInt8.ofNat c.toNat) rest).1.shown = c := by
  rw [headPiece_one (Nat.le_of_lt_succ hc)]
  exact Char.ofNat_toNat c

/-- A character of one byte is shown only where its byte is. -/
theorem mem_of_mem_decodeLossy {bytes : ByteArray} {c : Char}
    (h : c ∈ (decodeLossy bytes).toList) (hzero : c ≠ '\x00') (hc : c.toNat < 0x80) :
    UInt8.ofNat c.toNat ∈ bytes.toList := by
  rw [decodeLossy, String.toList_ofList] at h
  generalize bytes.toList = list at h
  fun_induction pieces list with
  | case1 => cases h
  | case2 a rest ih =>
    rw [List.map_cons, List.mem_cons] at h
    rcases h with hshown | h
    · rw [← (headPiece_shown hshown.symm hzero hc).1]
      exact .head _
    · exact .tail _ (List.mem_of_mem_drop (ih h))

/-- Bytes that show as characters of one byte are their bytes. -/
theorem eq_of_shown {bytes : List UInt8} {cs : List Char}
    (h : (pieces bytes).map (fun piece => piece.1.shown) = cs)
    (hcs : ∀ c ∈ cs, c ≠ '\x00' ∧ c.toNat < 0x80) : bytes = cs.map fun c => UInt8.ofNat c.toNat := by
  fun_induction pieces bytes generalizing cs with
  | case1 =>
    cases h
    rfl
  | case2 a rest ih =>
    rw [List.map_cons] at h
    cases cs with
    | nil => cases h
    | cons c cs =>
      obtain ⟨hshown, hrest⟩ := List.cons.inj h
      obtain ⟨hzero, hc⟩ := hcs c (.head _)
      obtain ⟨rfl, hsize⟩ := headPiece_shown hshown hzero hc
      rw [hsize, Nat.sub_self, List.drop_zero] at hrest ih
      rw [List.map_cons, ← ih hrest fun d hd => hcs d (.tail _ hd)]

end Recast.Text.Utf8
