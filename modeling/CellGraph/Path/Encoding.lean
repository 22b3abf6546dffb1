import CellGraph.Path.Basic
import CellGraph.Text.Utf8

/-!
# Texts in paths

The paths of a system are bytes, and need not be texts. Which bytes they are matters only where a path is cut into
components, at slashes and points. So a `RawPath` is handled as the path of the characters that have the numbers of its
bytes, its `marks`.

An `Encoding` says how texts stand in such paths: in `Encoding.bytes` by their bytes in UTF-8, where a component that is
no text reads with a replacement character for what is none. In `Encoding.characters` the characters of a path are those
of its text, so that all paths are texts. Of one and the same text both make paths with the same components.
-/

namespace CellGraph

/-- How texts stand in paths. -/
structure Encoding where
  /-- The text that a component reads as. -/
  text : Component → String
  /-- The path that a text is. -/
  path : String → Path

namespace Text

/-- The characters with the numbers of bytes. -/
def marks (bytes : Bytes) : List Char := bytes.map fun b => Char.ofNat b.toNat

/-- The bytes with the numbers of characters. -/
def unmarked (marks : List Char) : Bytes := marks.map fun c => UInt8.ofNat c.toNat

end Text

/-- A path as a system has it. -/
structure RawPath where
  bytes : Text.Bytes
  deriving DecidableEq, Repr

namespace RawPath

/-- The path whose characters stand for the bytes. -/
def marks (p : RawPath) : Path := .ofChars (Text.marks p.bytes)

/-- The path of the bytes that characters stand for. -/
def ofMarks (p : Path) : RawPath := ⟨Text.unmarked p.chars⟩

/-- The path that a text is. -/
def ofText (text : String) : RawPath := ⟨Text.encode text⟩

/-- What a path reads as. -/
def text (p : RawPath) : String := Text.decodeLossy p.bytes

end RawPath

namespace Encoding

/-- Paths of characters. Each of them is a text. -/
def characters : Encoding where
  text := Component.text
  path := Path.mk

/-- Paths whose characters stand for bytes. -/
def bytes : Encoding where
  text c := Text.decodeLossy (Text.unmarked c.text.toList)
  path text := (RawPath.ofText text).marks

/-- The components of a path, apart from the root, as texts with slashes between them. -/
def slashed (e : Encoding) (p : Path) : String :=
  "/".intercalate ((p.components.filter (· != .root)).map e.text)

end Encoding

end CellGraph
