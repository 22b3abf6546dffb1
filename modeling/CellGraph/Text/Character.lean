import CellGraph.Text.IdentifierTable

/-!
# Classes of characters

The character classes the formats of this library are written in: blank characters (Unicode `White_Space`), word
characters, the characters of identifiers, and the spaces and line ends of scripts.
-/

namespace CellGraph.Text

/-- A blank character: the Unicode property `White_Space`. -/
def isBlank (c : Char) : Bool :=
  let n := c.toNat
  (9 ≤ n && n ≤ 13) || n == 0x20 || n == 0x85 || n == 0xA0 || n == 0x1680 || (0x2000 ≤ n && n ≤ 0x200A) ||
    n == 0x2028 || n == 0x2029 || n == 0x202F || n == 0x205F || n == 0x3000

/-- A letter or digit of ASCII, or the underscore. -/
def isAsciiWord (c : Char) : Bool := c.isAlphanum || c == '_'

/-- A character that may start an identifier. -/
def isIdentifierStart (c : Char) : Bool :=
  if c.toNat < 0x80 then c.isAlpha || c == '_' || c == '$' else inRanges c.toNat startRanges

/-- A character that may continue an identifier; the two joiners are among them. -/
def isIdentifierPart (c : Char) : Bool :=
  if c.toNat < 0x80 then isAsciiWord c || c == '$'
  else c.toNat == 0x200C || c.toNat == 0x200D || inRanges c.toNat startRanges || inRanges c.toNat continueRanges

/-- Characters of identifiers that are no word characters. -/
def identifierOnlyRanges : List (Nat × Nat) := [
  (0xB7, 0xB7), (0x387, 0x387), (0x1369, 0x1371), (0x19DA, 0x19DA), (0x2118, 0x2118), (0x212E, 0x212E),
  (0x309B, 0x309C), (0x30FB, 0x30FB), (0xFF65, 0xFF65)]

/-- Word characters that are no characters of identifiers: enclosing marks and enclosed letters. -/
def wordOnlyRanges : List (Nat × Nat) := [
  (0x488, 0x489), (0x1ABE, 0x1ABE), (0x20DD, 0x20E0), (0x20E2, 0x20E4), (0x24B6, 0x24E9), (0x2E2F, 0x2E2F),
  (0xA670, 0xA672), (0x1F130, 0x1F149), (0x1F150, 0x1F169), (0x1F170, 0x1F189)]

/-- A word character: alphabetic characters, marks, decimal digits, connectors and joiners. -/
def isWord (c : Char) : Bool :=
  if c.toNat < 0x80 then isAsciiWord c
  else (isIdentifierPart c && !inRanges c.toNat identifierOnlyRanges) || inRanges c.toNat wordOnlyRanges

/-- The characters that end a line of a script. -/
def isLineEnd (c : Char) : Bool := c == '\n' || c == '\r' || c.toNat == 0x2028 || c.toNat == 0x2029

/-- The characters between the tokens of a script that do not end a line. -/
def isScriptSpace (c : Char) : Bool :=
  let n := c.toNat
  n == 9 || n == 11 || n == 12 || n == 0x20 || n == 0x85 || n == 0xA0 || n == 0x1680 || n == 0x180E ||
    (0x2000 ≤ n && n ≤ 0x200B) || n == 0x202F || n == 0x205F || n == 0x3000 || n == 0xFEFF

/-- The value of a hexadecimal digit. -/
def hexValue? (c : Char) : Option Nat :=
  if '0' ≤ c && c ≤ '9' then some (c.toNat - 48)
  else if 'a' ≤ c && c ≤ 'f' then some (c.toNat - 87)
  else if 'A' ≤ c && c ≤ 'F' then some (c.toNat - 55)
  else none

/-- The lower-case hexadecimal digit of a value below sixteen. -/
def hexDigit (n : Nat) : Char := if n < 10 then Char.ofNat (48 + n) else Char.ofNat (87 + n)

/-- The number that a list of hexadecimal digits writes, the most significant digit first. -/
def hexNumber? (digits : List Char) : Option Nat :=
  digits.foldl (fun acc c => acc.bind fun n => (hexValue? c).map (16 * n + ·)) (some 0)

end CellGraph.Text
