/-
  SourceFile.lean --- a source file as it was read; its content does not change afterwards.
-/
import Recast.Digest
import Recast.Path
import Recast.Text.Lines
import Recast.Text.Utf8

set_option autoImplicit false

namespace Recast

/-- A source file. -/
structure SourceFile where
  path : Path
  content : ByteArray
  /-- Why the file could not be parsed, if it could not. -/
  syntaxError : Option String := none
  deriving DecidableEq

namespace SourceFile

/-- The digest of the content. -/
def digest (f : SourceFile) : Digest := Digest.ofBytes f.content

/-- The content as text; what is no text shows as replacement characters. -/
def text (f : SourceFile) : String := Text.Utf8.decodeLossy f.content

/-- The number of lines. -/
def lineCount (f : SourceFile) : Nat := (Text.lines f.text.toList).length

/-- The number of bytes. -/
def size (f : SourceFile) : Nat := f.content.size

/-- Whether the content is text. -/
def isText (f : SourceFile) : Bool := (Text.Utf8.decode? f.content).isSome

/-- Whether the file was not marked as broken. -/
def parses (f : SourceFile) : Bool := f.syntaxError.isNone

/-- The file marked as broken. -/
def markBroken (f : SourceFile) (reason : String) : SourceFile :=
  { f with syntaxError := some reason }

end SourceFile

end Recast
