import CellGraph.Text.Layout

/-!
# Cells of documents
-/

namespace CellGraph.Document

/-- What a cell of a document holds. -/
inductive CellKind
  | markdown
  | code
  | raw
  deriving DecidableEq, Repr

/-- A cell of a document: a stretch of its text, counted in bytes. -/
structure Cell where
  kind : CellKind
  language : String
  source : List Char
  start : Nat
  stop : Nat
  deriving DecidableEq, Repr

/-- The cell that a stretch of text is. -/
def Cell.ofText (kind : CellKind) (language : String) (source : List Char) (start : Nat) : Cell :=
  ⟨kind, language, source, start, start + Text.byteLength source⟩

/-- The cell of a stretch of text outside of fences. -/
def markdownCell (source : List Char) (start : Nat) : Cell := .ofText .markdown "markdown" source start

end CellGraph.Document
