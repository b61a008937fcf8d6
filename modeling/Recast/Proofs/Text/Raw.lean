/-
  Proofs/Text/Raw.lean --- texts as the file system keeps them.

  The bytes of a text show as the text (`text_ofString`), so different texts have different bytes
  (`ofString_injective`); other bytes may show as a text that is not theirs.  Slashes cut bytes as
  they cut the text that the bytes are of (`slash_mem_ofString`), and pieces without slashes are what
  they are joined from (`pieces_joined`).
-/
import Mathlib.Data.List.TakeDrop
import Mathlib.Data.List.TakeWhile
import Recast.Proofs.Text.Utf8
import Recast.Text.Raw

set_option autoImplicit false

namespace Recast

/-! ## Pieces of lists -/

namespace Text

variable {α : Type} {p : α → Bool}

theorem splitAtClass_ne_nil (p : α → Bool) (cs : List α) : splitAtClass p cs ≠ [] := by
  cases cs with
  | nil => exact List.cons_ne_nil _ _
  | cons c cs =>
    unfold splitAtClass
    split
    · exact List.cons_ne_nil _ _
    · split <;> exact List.cons_ne_nil _ _

theorem splitAtClass_of_none {cs : List α} (h : ∀ c ∈ cs, p c = false) :
    splitAtClass p cs = [cs] := by
  induction cs with
  | nil => rfl
  | cons c cs ih =>
    have hc := h c (.head _)
    have hcs := ih fun d hd => h d (.tail _ hd)
    simp [splitAtClass, hc, hcs]

/-- The pieces before and after an item of the class. -/
theorem splitAtClass_append {c : α} (hc : p c = true) (before after : List α) :
    splitAtClass p (before ++ c :: after) = splitAtClass p before ++ splitAtClass p after := by
  induction before with
  | nil => simp [splitAtClass, hc]
  | cons b before ih =>
    rw [List.cons_append, splitAtClass, splitAtClass, ih]
    split
    · rfl
    · cases hbefore : splitAtClass p before with
      | nil => exact absurd hbefore (splitAtClass_ne_nil p before)
      | cons piece pieces => rfl

/-- No piece holds an item of the class. -/
theorem eq_false_of_mem_splitAtClass {cs piece : List α} (h : piece ∈ splitAtClass p cs) :
    ∀ c ∈ piece, p c = false := by
  induction cs generalizing piece with
  | nil =>
    rw [splitAtClass, List.mem_singleton] at h
    subst h
    exact fun _ hc => absurd hc List.not_mem_nil
  | cons d cs ih =>
    unfold splitAtClass at h
    split at h
    · rcases List.mem_cons.1 h with rfl | h
      · exact fun _ hc => absurd hc List.not_mem_nil
      · exact ih h
    · next hd =>
      split at h
      · next hnil => exact absurd hnil (splitAtClass_ne_nil p cs)
      · next first rest hsplit =>
        rcases List.mem_cons.1 h with rfl | h
        · intro c hc
          rcases List.mem_cons.1 hc with rfl | hc
          · exact Bool.eq_false_iff.2 hd
          · exact ih (hsplit ▸ .head _) c hc
        · exact ih (hsplit ▸ .tail _ h)

theorem flatten_splitAtClass (p : α → Bool) (cs : List α) :
    (splitAtClass p cs).flatten = cs.filter fun c => !p c := by
  induction cs with
  | nil => rfl
  | cons c cs ih =>
    rw [splitAtClass]
    split
    · next hc => simp [hc, ih]
    · next hc =>
      split
      · next hnil => exact absurd hnil (splitAtClass_ne_nil p cs)
      · next piece rest heq =>
        rw [heq] at ih
        simp_all

/-- A part of a list without items of the class, with such items or an end on both sides. -/
structure IsPiece (p : α → Bool) (cs before piece after : List α) : Prop where
  text : cs = before ++ piece ++ after
  inside : ∀ c ∈ piece, p c = false
  left : ∀ c, before.getLast? = some c → p c = true
  right : ∀ c, after.head? = some c → p c = true

theorem exists_isPiece_of_mem_splitAtClass {cs piece : List α}
    (h : piece ∈ splitAtClass p cs) : ∃ before after, IsPiece p cs before piece after := by
  induction hn : cs.length using Nat.strongRecOn generalizing cs with
  | ind n ih =>
    by_cases hnone : ∀ c ∈ cs, p c = false
    · rw [splitAtClass_of_none hnone, List.mem_singleton] at h
      subst h
      exact ⟨[], [], by simp, hnone, by simp, by simp⟩
    · have hsplit : cs.takeWhile (fun c => !p c) ++ cs.dropWhile (fun c => !p c) = cs :=
        List.takeWhile_append_dropWhile
      have hbody : ∀ c ∈ cs.takeWhile (fun c => !p c), p c = false := fun c hc => by
        simpa using List.mem_takeWhile_imp hc
      cases hrest : cs.dropWhile (fun c => !p c) with
      | nil =>
        rw [hrest, List.append_nil] at hsplit
        exact absurd (hsplit ▸ hbody) hnone
      | cons d rest =>
        have hd : p d = true := by
          have hhead := List.head_dropWhile_not (fun c => !p c) (l := cs) (by simp [hrest])
          simpa [hrest] using hhead
        rw [← hsplit, hrest, splitAtClass_append hd, splitAtClass_of_none hbody,
          List.singleton_append] at h
        rw [← hsplit, hrest]
        rcases List.mem_cons.1 h with rfl | h
        · exact ⟨[], d :: rest, by simp, hbody, by simp, by simpa using hd⟩
        · have hlength : rest.length < n := by
            rw [← hn, ← hsplit, hrest, List.length_append, List.length_cons]
            omega
          obtain ⟨before, after, hpiece⟩ := ih rest.length hlength h rfl
          refine ⟨cs.takeWhile (fun c => !p c) ++ d :: before, after, ?_, hpiece.inside, ?_,
            hpiece.right⟩
          · simp [hpiece.text]
          · intro c hc
            rw [List.getLast?_append, List.getLast?_cons, Option.some_or, Option.some.injEq] at hc
            cases hlast : before.getLast? with
            | none => rwa [← hc, hlast]
            | some e =>
              rw [← hc, hlast]
              exact hpiece.left e hlast

theorem mem_splitAtClass_of_isPiece {cs before piece after : List α}
    (h : IsPiece p cs before piece after) : piece ∈ splitAtClass p cs := by
  have hright : piece ∈ splitAtClass p (piece ++ after) := by
    cases after with
    | nil => simp [splitAtClass_of_none h.inside]
    | cons d after =>
      rw [splitAtClass_append (h.right d rfl), splitAtClass_of_none h.inside]
      exact .head _
  rw [h.text, List.append_assoc]
  rcases List.eq_nil_or_concat before with rfl | ⟨init, d, rfl⟩
  · exact hright
  · rw [List.concat_eq_append, List.append_assoc, List.singleton_append,
      splitAtClass_append (h.left d (by simp))]
    exact List.mem_append_right _ hright

/-- The pieces of a list are its parts between items of the class. -/
theorem mem_splitAtClass_iff {cs piece : List α} :
    piece ∈ splitAtClass p cs ↔ ∃ before after, IsPiece p cs before piece after :=
  ⟨exists_isPiece_of_mem_splitAtClass, fun ⟨_, _, h⟩ => mem_splitAtClass_of_isPiece h⟩

/-- A list is cut at the first of the items. -/
theorem cutAt?_eq_some_iff [BEq α] [LawfulBEq α] {c : α} {cs before after : List α} :
    cutAt? c cs = some (before, after) ↔ cs = before ++ c :: after ∧ c ∉ before := by
  unfold cutAt?
  rw [List.span_eq_takeWhile_dropWhile]
  constructor
  · intro h
    split at h
    · cases h
    · next first d rest heq =>
      cases h
      obtain ⟨hbefore, hafter⟩ := Prod.mk.inj heq
      have hd : d = c := by
        simpa [hafter] using List.head_dropWhile_not (· != c) (l := cs) (by simp [hafter])
      constructor
      · rw [← hd, ← hafter, ← hbefore]
        exact List.takeWhile_append_dropWhile.symm
      · intro hmem
        rw [← hbefore] at hmem
        simpa using List.mem_takeWhile_imp hmem
  · rintro ⟨rfl, hbefore⟩
    have hother : ∀ d ∈ before, (d != c) = true := by
      intro d hd
      rw [bne_iff_ne]
      rintro rfl
      exact hbefore hd
    rw [List.takeWhile_append_of_pos hother, List.dropWhile_append_of_pos hother]
    simp

end Text

namespace RawText

@[ext] theorem ext {a b : RawText} (h : a.bytes = b.bytes) : a = b := by
  cases a
  cases b
  cases h
  rfl

theorem append_assoc (a b c : RawText) : a ++ b ++ c = a ++ (b ++ c) :=
  ext (List.append_assoc _ _ _)

@[simp] theorem append_empty (a : RawText) : a ++ "" = a := ext (List.append_nil _)

theorem append_right_inj (a : RawText) {b c : RawText} : a ++ b = a ++ c ↔ b = c :=
  ⟨fun h => ext (List.append_cancel_left (congrArg bytes h)), fun h => congrArg _ h⟩

/-! ## The bytes of a text -/

theorem bytes_ofString (s : String) :
    (ofString s).bytes = s.toList.flatMap String.utf8EncodeChar := by
  rw [← Text.Utf8.toList_toUTF8, Text.Utf8.toList_eq]
  rfl

theorem length_bytes_ofString (s : String) : (ofString s).bytes.length = s.utf8ByteSize := by
  rw [ofString, Array.length_toList]
  rfl

/-- The bytes of a text show as the text. -/
@[simp] theorem text_ofString (s : String) : (ofString s).text = s :=
  Text.Utf8.decodeLossy_toUTF8 s

theorem ofString_injective : Function.Injective ofString := fun a b h => by
  rw [← text_ofString a, h, text_ofString]

@[simp] theorem ofString_inj {a b : String} : ofString a = ofString b ↔ a = b :=
  ofString_injective.eq_iff

@[simp] theorem ofString_append (a b : String) : ofString (a ++ b) = ofString a ++ ofString b := by
  refine ext ?_
  rw [bytes_append, bytes_ofString, bytes_ofString, bytes_ofString, String.toList_append,
    List.flatMap_append]

/-- A byte of one character is in the bytes of a text if the character is in the text. -/
theorem byte_mem_ofString {c : Char} (hc : c.val.toNat < 0x80) {s : String} :
    UInt8.ofNat c.val.toNat ∈ (ofString s).bytes ↔ c ∈ s.toList := by
  have hone (d : Char) : UInt8.ofNat c.val.toNat ∈ String.utf8EncodeChar d ↔ c = d := by
    unfold String.utf8EncodeChar
    dsimp only
    have hbyte : (UInt8.ofNat c.val.toNat).toNat = c.val.toNat :=
      Text.Utf8.toNat_ofNat_byte (by omega)
    have hchar : c = d ↔ c.val.toNat = d.val.toNat := by
      rw [Char.ext_iff, UInt32.toNat_inj]
    have hfirst {n : Nat} (hn : n < 256) :
        UInt8.ofNat c.val.toNat = UInt8.ofNat n ↔ c.val.toNat = n := by
      rw [← UInt8.toNat_inj, hbyte, Text.Utf8.toNat_ofNat_byte hn]
    have hvalid : d.val.toNat < 0x110000 := by
      rcases d.valid with h | h
      · exact Nat.lt_trans h (by decide)
      · exact h.2
    rw [hchar]
    generalize d.val.toNat = v at hvalid
    split
    · rw [List.mem_singleton, hfirst (by omega)]
    · split
      · simp only [List.mem_cons, List.not_mem_nil, or_false]
        rw [hfirst (by omega), hfirst (by omega)]
        omega
      · split
        · simp only [List.mem_cons, List.not_mem_nil, or_false]
          rw [hfirst (by omega), hfirst (by omega), hfirst (by omega)]
          omega
        · simp only [List.mem_cons, List.not_mem_nil, or_false]
          rw [hfirst (by omega), hfirst (by omega), hfirst (by omega), hfirst (by omega)]
          omega
  rw [bytes_ofString, List.mem_flatMap]
  simp only [hone, exists_eq_right']

/-- The bytes of a text end in a byte of one character only if the text ends in the character. -/
theorem getLast?_of_ofString {c : Char} (hc : c.val.toNat < 0x80) {s : String}
    (h : (ofString s).bytes.getLast? = some (UInt8.ofNat c.val.toNat)) :
    s.toList.getLast? = some c := by
  rcases List.eq_nil_or_concat s.toList with hnil | ⟨init, d, hlast⟩
  · rw [bytes_ofString, hnil] at h
    cases h
  · rw [List.concat_eq_append] at hlast
    rw [hlast, List.getLast?_concat, Option.some.injEq]
    have hone : (ofString (String.ofList [d])).bytes = String.utf8EncodeChar d := by
      rw [bytes_ofString, String.toList_ofList, List.flatMap_singleton]
    rw [bytes_ofString, hlast, List.flatMap_append, List.flatMap_singleton, List.getLast?_append,
      List.getLast?_eq_some_getLast String.utf8EncodeChar_ne_nil, Option.some_or,
      ← List.getLast?_eq_some_getLast] at h
    have hmem := (byte_mem_ofString hc).1 (hone ▸ List.mem_of_getLast? h)
    rw [String.toList_ofList, List.mem_singleton] at hmem
    exact hmem.symm

theorem slash_mem_ofString {s : String} : slash ∈ (ofString s).bytes ↔ '/' ∈ s.toList :=
  byte_mem_ofString (c := '/') (by decide)

/-- What shows as a text of characters of one byte is that text. -/
theorem text_eq_iff {r : RawText} {s : String}
    (hs : ∀ c ∈ s.toList, c ≠ '\x00' ∧ c.toNat < 0x80) : r.text = s ↔ r = s := by
  have hbytes {t : RawText} (ht : t.text = s) :
      t.bytes = s.toList.map fun c => UInt8.ofNat c.toNat := by
    refine Text.Utf8.eq_of_shown ?_ hs
    rw [← ht, text, Text.Utf8.decodeLossy, Text.Utf8.toList_eq, String.toList_ofList]
  refine ⟨fun h => ext ?_, fun h => h ▸ text_ofString s⟩
  rw [hbytes h, hbytes (text_ofString s)]

/-- What shows as beginning with a character of one byte begins with its byte. -/
theorem head?_text {r : RawText} {c : Char} (hzero : c ≠ '\x00') (hc : c.toNat < 0x80) :
    r.text.toList.head? = some c ↔ r.bytes.head? = some (UInt8.ofNat c.toNat) := by
  rw [text, Text.Utf8.decodeLossy, Text.Utf8.toList_eq, String.toList_ofList, List.toList_toArray]
  cases r.bytes with
  | nil => simp [Text.Utf8.pieces]
  | cons a rest =>
    rw [Text.Utf8.pieces, List.map_cons, List.head?_cons, List.head?_cons, Option.some.injEq,
      Option.some.injEq]
    constructor
    · exact fun h => (Text.Utf8.headPiece_shown h hzero hc).1
    · rintro rfl
      exact Text.Utf8.headPiece_ofNat hc rest

/-- A slash is shown only where there is one. -/
theorem slash_mem_of_text {r : RawText} (h : '/' ∈ r.text.toList) : slash ∈ r.bytes := by
  have hmem := Text.Utf8.mem_of_mem_decodeLossy h (by decide) (by decide)
  rwa [Text.Utf8.toList_eq] at hmem

/-! ## Pieces between slashes -/

theorem exists_pieces (r : RawText) : ∃ first rest, r.pieces = first :: rest := by
  cases h : r.pieces with
  | nil => exact absurd (List.map_eq_nil_iff.1 h) (Text.splitAtClass_ne_nil _ _)
  | cons first rest => exact ⟨first, rest, rfl⟩

theorem pieces_of_noSlash {name : RawText} (h : slash ∉ name.bytes) : name.pieces = [name] := by
  have hnone : ∀ b ∈ name.bytes, (b == slash) = false := by
    intro b hb
    exact beq_eq_false_iff_ne.2 fun heq => h (heq ▸ hb)
  rw [pieces, Text.splitAtClass_of_none hnone]
  rfl

theorem pieces_append_slash (before after : RawText) :
    (before ++ "/" ++ after).pieces = before.pieces ++ after.pieces := by
  have hbytes : (before ++ "/" ++ after).bytes = before.bytes ++ slash :: after.bytes := by
    rw [bytes_append, bytes_append, List.append_assoc]
    rfl
  rw [pieces, hbytes, Text.splitAtClass_append (p := (· == slash)) rfl, List.map_append]
  rfl

theorem pieces_slash (r : RawText) : ("/" ++ r).pieces = ("" : RawText) :: r.pieces :=
  pieces_append_slash "" r

theorem noSlash_of_mem_pieces {r piece : RawText} (h : piece ∈ r.pieces) : slash ∉ piece.bytes := by
  obtain ⟨bytes, hbytes, rfl⟩ := List.mem_map.1 h
  intro hmem
  have := Text.eq_false_of_mem_splitAtClass hbytes slash hmem
  contradiction

@[simp] theorem joined_singleton (r : RawText) : joined [r] = r := by
  refine ext ?_
  simp [joined]

theorem joined_cons_cons (first next : RawText) (rest : List RawText) :
    joined (first :: next :: rest) = first ++ "/" ++ joined (next :: rest) := by
  refine ext ?_
  rw [bytes_append, bytes_append, joined, joined, List.map_cons, List.map_cons,
    List.intercalate_cons_cons]
  rfl

/-- Texts without slashes are the pieces of what they are joined to. -/
theorem pieces_joined {rs : List RawText} (hne : rs ≠ []) (h : ∀ r ∈ rs, slash ∉ r.bytes) :
    (joined rs).pieces = rs := by
  induction rs with
  | nil => exact absurd rfl hne
  | cons r rs ih =>
    have hr := pieces_of_noSlash (h r (.head _))
    cases rs with
    | nil => rw [joined_singleton, hr]
    | cons next rs =>
      rw [joined_cons_cons, pieces_append_slash, hr,
        ih (List.cons_ne_nil _ _) fun t ht => h t (.tail _ ht), List.singleton_append]

theorem append_ne_empty {a : RawText} (h : a ≠ "") (b : RawText) : a ++ b ≠ "" := by
  intro heq
  refine h (ext ?_)
  exact (List.append_eq_nil_iff.1 (congrArg bytes heq)).1

theorem head?_append {a : RawText} (h : a ≠ "") (b : RawText) :
    (a ++ b).bytes.head? = a.bytes.head? := by
  rw [bytes_append]
  cases ha : a.bytes with
  | nil => exact absurd (ext ha) h
  | cons c cs => rfl

end RawText

end Recast
