import CellGraph.Text.Character

/-!
# Lines, margins and lengths

A text is a list of characters. `splitLines` cuts it after every line feed and loses nothing
(`flatten_splitLines`); `trim` drops the blank characters of both ends; `byteLength` is the length in UTF-8.
-/

namespace CellGraph.Text

/-- The lines of a text, each with the line feed that ends it. -/
def splitLines : List Char → List (List Char)
  | [] => []
  | c :: cs =>
    if c = '\n' then [c] :: splitLines cs
    else match splitLines cs with
      | [] => [[c]]
      | line :: lines => (c :: line) :: lines

/-- The lines of a text make up the text. -/
theorem flatten_splitLines (text : List Char) : (splitLines text).flatten = text := by
  induction text with
  | nil => rfl
  | cons c cs ih =>
    unfold splitLines
    split
    · simp [ih]
    · cases h : splitLines cs with
      | nil => rw [h] at ih; simp only [List.flatten_nil] at ih; simp [← ih]
      | cons line lines => rw [h] at ih; simp only [List.flatten_cons] at ih; simp [ih]

/-- A text without the characters of a class at its end. -/
def dropEndWhile (p : Char → Bool) (text : List Char) : List Char := (text.reverse.dropWhile p).reverse

/-- A text without the blank characters at its ends. -/
def trim (text : List Char) : List Char := dropEndWhile isBlank (text.dropWhile isBlank)

/-- Whether a text has blank characters only. -/
def isAllBlank (text : List Char) : Bool := text.all isBlank

/-- The length of a text in UTF-8. -/
def byteLength : List Char → Nat
  | [] => 0
  | c :: cs => c.utf8Size + byteLength cs

theorem byteLength_append (a b : List Char) : byteLength (a ++ b) = byteLength a + byteLength b := by
  induction a with
  | nil => simp [byteLength]
  | cons c cs ih => simp [byteLength, ih, Nat.add_assoc]

/-- What follows `start` in a text that begins with it. -/
def dropPrefix? : List Char → List Char → Option (List Char)
  | [], text => some text
  | _ :: _, [] => none
  | p :: ps, c :: cs => if p = c then dropPrefix? ps cs else none

theorem eq_append_of_dropPrefix? {start text rest : List Char} (h : dropPrefix? start text = some rest) :
    text = start ++ rest := by
  induction start generalizing text with
  | nil => simpa [dropPrefix?] using h
  | cons p ps ih =>
    cases text with
    | nil => simp [dropPrefix?] at h
    | cons c cs =>
      by_cases hp : p = c
      · simp only [dropPrefix?, if_pos hp] at h; simp [hp, ih h]
      · simp [dropPrefix?, hp] at h

/-- Whether `part` occurs somewhere in a text. -/
def occursIn (part : List Char) : List Char → Bool
  | [] => part.isEmpty
  | c :: cs => part.isPrefixOf (c :: cs) || occursIn part cs

end CellGraph.Text
