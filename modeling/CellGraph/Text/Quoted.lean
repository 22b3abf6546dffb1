import CellGraph.Text.Character
import CellGraph.Text.HiddenTable

/-!
# Quoted texts

A text in double quotes, as it is shown in messages: quotes and backslashes are escaped, some control characters have a
letter, and other characters that do not show are written by their number.
-/

namespace CellGraph.Text

/-- Whether a character shows on its own. -/
def isVisible (c : Char) : Bool :=
  if c.toNat < 0x7F then 0x20 ≤ c.toNat else !inRanges c.toNat hiddenRanges

/-- A character by its number. -/
def numbered (c : Char) : List Char := "\\u\x7b".toList ++ Nat.toDigits 16 c.toNat ++ ['}']

/-- A character as it stands between quotes. -/
def quotedChar (c : Char) : List Char :=
  match c with
  | '\x00' => ['\\', '0']
  | '\t' => ['\\', 't']
  | '\r' => ['\\', 'r']
  | '\n' => ['\\', 'n']
  | '\\' => ['\\', '\\']
  | '"' => ['\\', '"']
  | c => if isVisible c then [c] else numbered c

/-- A text in quotes. -/
def quoted (text : String) : String := .ofList ('"' :: text.toList.flatMap quotedChar ++ ['"'])

end CellGraph.Text
