/-
  Text/Raw.lean --- names and paths as the file system keeps them: bytes that need not be text.

  Bytes that are no text still show as one (`RawText.text`), and different bytes may show as the same
  text.
-/
import Recast.Instances
import Recast.Text.Search
import Recast.Text.Utf8

set_option autoImplicit false

namespace Recast

/-- A text as the file system keeps it. -/
structure RawText where
  bytes : List UInt8
  deriving DecidableEq, Inhabited

namespace RawText

/-- The bytes of a text. -/
def ofString (s : String) : RawText := ⟨s.toUTF8.data.toList⟩

instance : Coe String RawText := ⟨ofString⟩

/-- The text that the bytes show as; a replacement character stands for what is no text. -/
def text (r : RawText) : String := Text.Utf8.decodeLossy ⟨r.bytes.toArray⟩

/-- Whether the bytes are text. -/
def isText (r : RawText) : Bool := (Text.Utf8.decode? ⟨r.bytes.toArray⟩).isSome

instance : Append RawText := ⟨fun a b => ⟨a.bytes ++ b.bytes⟩⟩

@[simp] theorem bytes_append (a b : RawText) : (a ++ b).bytes = a.bytes ++ b.bytes := rfl

/-! ## Order -/

instance : LT RawText := ⟨fun a b => a.bytes < b.bytes⟩
instance : LE RawText := ⟨fun a b => a.bytes ≤ b.bytes⟩
instance : DecidableLT RawText := fun a b => inferInstanceAs (Decidable (a.bytes < b.bytes))

instance : Std.IsLinearOrder RawText where
  le_refl a := Std.le_refl a.bytes
  le_trans a b c := Std.le_trans (a := a.bytes) (b := b.bytes) (c := c.bytes)
  le_antisymm a b h h' := congrArg mk (Std.le_antisymm (a := a.bytes) (b := b.bytes) h h')
  le_total a b := Std.le_total (a := a.bytes) (b := b.bytes)

instance : Std.LawfulOrderLT RawText where
  lt_iff a b := Std.lt_iff_le_and_not_ge (a := a.bytes) (b := b.bytes)

instance : Std.LawfulOrderLT (List RawText) := inferInstance

/-! ## Pieces between slashes -/

/-- The byte between the components of a path. -/
def slash : UInt8 := 0x2F

/-- The byte in front of the extension of a name. -/
def dot : UInt8 := 0x2E

/-- The pieces between slashes. -/
def pieces (r : RawText) : List RawText := (Text.splitAtClass (· == slash) r.bytes).map mk

/-- Texts with slashes between them. -/
def joined (rs : List RawText) : RawText := ⟨[slash].intercalate (rs.map bytes)⟩

end RawText

end Recast
