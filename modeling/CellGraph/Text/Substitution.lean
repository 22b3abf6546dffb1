import CellGraph.Text.Layout

/-!
# Replacing what a pattern matches

A `Pattern` looks at a position of a text, given the character before it, and answers how many characters it takes and
what stands in their place. `substitute` replaces the leftmost matches that do not overlap, from left to right. The
character before a position is always one of the text itself, also inside or right after a match.
-/

namespace CellGraph.Text

/-- What a pattern found: it takes `extra + 1` characters, and `replacement` stands in their place. -/
structure Match where
  extra : Nat
  replacement : List Char
  deriving DecidableEq, Repr

/-- A pattern, as a function of the character before a position and of the text from there on. -/
abbrev Pattern := Option Char → List Char → Option Match

/-- Replaces the matches of a pattern; `skip` counts the characters still covered by the last one. -/
def substituteFrom (pattern : Pattern) : Option Char → Nat → List Char → List Char
  | _, _, [] => []
  | _, skip + 1, c :: cs => substituteFrom pattern (some c) skip cs
  | before, 0, c :: cs =>
    match pattern before (c :: cs) with
    | some m => m.replacement ++ substituteFrom pattern (some c) m.extra cs
    | none => c :: substituteFrom pattern (some c) 0 cs

/-- Replaces the leftmost matches of a pattern that do not overlap. -/
def substitute (pattern : Pattern) (text : List Char) : List Char := substituteFrom pattern none 0 text

/-- Whether a word can start here: the character before is no word character. -/
def atWordStart : Option Char → Bool
  | none => true
  | some c => !isWord c

/-- Whether a line starts here: at the start of the text or after a line feed. -/
def atLineStart : Option Char → Bool
  | none => true
  | some c => c == '\n'

/-- The match that takes all of `text` up to `rest`, one of its ends. -/
def Match.upTo (text rest replacement : List Char) : Match := ⟨text.length - rest.length - 1, replacement⟩

end CellGraph.Text
