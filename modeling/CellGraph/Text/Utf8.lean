import CellGraph.Text.Layout

/-!
# UTF-8

`encode` writes a text in bytes, `decode?` reads bytes that are the form of a text, and `decodeLossy` reads any bytes:
whatever starts a character but does not go on as one becomes one replacement character.
-/

namespace CellGraph.Text

/-- A list of bytes. -/
abbrev Bytes := List UInt8

/-- The bytes of a text. -/
def encode (text : String) : Bytes := text.toList.flatMap String.utf8EncodeChar

/-- The bytes that may follow the first byte of a character directly, and how many follow it in all. -/
def following? (first : UInt8) : Option (UInt8 × UInt8 × Nat) :=
  if 0xC2 ≤ first && first ≤ 0xDF then some (0x80, 0xBF, 1)
  else if first == 0xE0 then some (0xA0, 0xBF, 2)
  else if first == 0xED then some (0x80, 0x9F, 2)
  else if 0xE1 ≤ first && first ≤ 0xEF then some (0x80, 0xBF, 2)
  else if first == 0xF0 then some (0x90, 0xBF, 3)
  else if first == 0xF4 then some (0x80, 0x8F, 3)
  else if 0xF1 ≤ first && first ≤ 0xF3 then some (0x80, 0xBF, 3)
  else none

/-- The part of a character's number that its first byte holds, if so many bytes follow. -/
def leadingBits (first : UInt8) (count : Nat) : Nat := first.toNat % Nat.pow 2 (6 - count)

/-- A character that has begun: its number so far, how many bytes are to follow, and the bounds of the next one. -/
structure Begun where
  number : Nat
  left : Nat
  low : UInt8
  high : UInt8

/-- Reads bytes, given a character that has begun. What is no character is `none`. -/
def scan : Option Begun → Bytes → List (Option Char)
  | none, [] => []
  | some _, [] => [none]
  | none, b :: bs =>
    if b < 0x80 then some (Char.ofNat b.toNat) :: scan none bs
    else match following? b with
      | some (low, high, count) => scan (some ⟨leadingBits b count, count, low, high⟩) bs
      | none => none :: scan none bs
  | some begun, b :: bs =>
    if begun.low ≤ b && b ≤ begun.high then
      let number := begun.number * 64 + b.toNat % 64
      if begun.left = 1 then some (Char.ofNat number) :: scan none bs
      else scan (some ⟨number, begun.left - 1, 0x80, 0xBF⟩) bs
    else if b < 0x80 then none :: some (Char.ofNat b.toNat) :: scan none bs
    else match following? b with
      | some (low, high, count) => none :: scan (some ⟨leadingBits b count, count, low, high⟩) bs
      | none => none :: none :: scan none bs

/-- The text whose bytes are given, if they are the bytes of a text. -/
def decode? (bytes : Bytes) : Option String := ((scan none bytes).mapM id).map .ofList

/-- The text of any bytes, with a replacement character for what is no character. -/
def decodeLossy (bytes : Bytes) : String := .ofList ((scan none bytes).map fun c => c.getD (Char.ofNat 0xFFFD))

end CellGraph.Text
