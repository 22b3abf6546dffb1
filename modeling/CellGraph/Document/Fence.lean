import CellGraph.Document.Cell
import CellGraph.Text.Lowercase

/-!
# Fenced documents

Code stands between fences: lines of at least three backticks or tildes. The opening one names the language, and a
closing one is at least as long. What stands between fences is a cell, a stretch outside of them too unless it is
blank, and a fence that is never closed runs to the end.
-/

namespace CellGraph.Document

open Text

/-- A fence that has been opened: its character and length, and what it holds. -/
structure Fence where
  mark : Char
  length : Nat
  kind : CellKind
  language : String
  deriving DecidableEq, Repr

/-- A line without what ends it. -/
def lineText (line : List Char) : List Char := dropEndWhile (fun c => c == '\n' || c == '\r') line

/-- What follows an indentation of at most three spaces. -/
def afterIndent? (line : List Char) : Option (List Char) :=
  if (line.takeWhile (· == ' ')).length ≤ 3 then some (line.dropWhile (· == ' ')) else none

/-- A character of the name of a language. -/
def isLanguageChar (c : Char) : Bool := c.isAlphanum || c == '_' || c == '+' || c == '-'

/-- The name of the language that a text begins with, in lower case. -/
def languageAt (text : List Char) : String := .ofList (lowerCase (text.takeWhile isLanguageChar))

/-- Drops a character if a text begins with it. -/
def dropChar (c : Char) (text : List Char) : List Char :=
  match text with
  | d :: rest => if d == c then rest else text
  | [] => []

/-- What a fence with the given information holds: a language in braces, raw output after an equals sign, or a bare
name. -/
def classify (info : List Char) : CellKind × String :=
  let bare := (CellKind.code, languageAt info)
  match info with
  | '{' :: cs =>
    let marked := cs.dropWhile isBlank
    let name := dropChar '.' (dropChar '=' marked)
    if (name.head?.any isLanguageChar) && (name.dropWhile isLanguageChar).any (· == '}') then
      (if marked.head? == some '=' then .raw else .code, languageAt name)
    else bare
  | _ => bare

/-- The fence that a line opens. A fence of backticks has none in its information. -/
def openedFence? (line : List Char) : Option Fence := do
  let text ← afterIndent? (lineText line)
  let mark ← text.head?
  let run := text.takeWhile (· == mark)
  let info := trim (text.dropWhile (· == mark))
  guard ((mark == '\x60' || mark == '~') && run.length ≥ 3 && !(mark == '\x60' && info.contains '\x60'))
  let (kind, language) := classify info
  return ⟨mark, run.length, kind, language⟩

/-- Whether a line closes a fence. -/
def Fence.isClosedBy (fence : Fence) (line : List Char) : Bool :=
  match afterIndent? (lineText line) with
  | some text =>
    (text.takeWhile (· == fence.mark)).length ≥ fence.length && isAllBlank (text.dropWhile (· == fence.mark))
  | none => false

/-- The cells of a stretch of text, inside a fence or outside of fences. -/
def stretchCells (inside : Option Fence) (start : Nat) (text : List Char) : List Cell :=
  match inside with
  | some fence => [.ofText fence.kind fence.language text start]
  | none => if isAllBlank text then [] else [markdownCell text start]

/-- Where a line that bounds a stretch leads: into a fence or out of one. -/
def crossing? (inside : Option Fence) (line : List Char) : Option (Option Fence) :=
  match inside with
  | some fence => if fence.isClosedBy line then some none else none
  | none => (openedFence? line).map some

/-- The cells of the lines of a document; `seen` are the lines of the current stretch, the last one first. -/
def segmentLines (inside : Option Fence) (start : Nat) (seen : List (List Char)) : List (List Char) → List Cell
  | [] => stretchCells inside start seen.reverse.flatten
  | line :: lines =>
    match crossing? inside line with
    | some next =>
      let text := seen.reverse.flatten
      stretchCells inside start text ++ segmentLines next (start + byteLength text + byteLength line) [] lines
    | none => segmentLines inside start (line :: seen) lines

/-- The cells of a fenced document. -/
def segment (text : List Char) : List Cell := segmentLines none 0 [] (splitLines text)

end CellGraph.Document
