import CellGraph.Document.Fence
import CellGraph.Json.Value

/-!
# Notebooks

A notebook is a JSON text with cells and metadata. Its code cells are in the language of its kernel; its other cells
are fenced documents. What does not fit has no cells at all: the members that count must be of their types, must not
be given twice and must be kept, while other members may say anything.
-/

namespace CellGraph.Document

open Json

/-- A cell of a notebook. -/
structure NotebookCell where
  kind : String
  source : String
  deriving DecidableEq, Repr

/-- A notebook. -/
structure Notebook where
  cells : List NotebookCell
  metadata : Value

/-- How deep values may be nested that are kept. -/
def maxDepth : Nat := 127

/-- The members of an object whose names are texts. -/
def namedMembers? (members : List (Option String × Tree)) : Option (List (String × Tree)) :=
  members.mapM fun (name, tree) => name.map fun name => (name, tree)

/-- The values of members given by a list of names, and what each of them is if it is not repeated. A list gives them
in order, an object by name. -/
def fields? (names : List String) : Tree → Option (List (Option Tree))
  | .array elements =>
    if elements.length ≤ names.length then
      some (elements.map some ++ List.replicate (names.length - elements.length) none)
    else none
  | .object members => do
    let members ← namedMembers? members
    names.mapM fun name =>
      match members.filter fun member => member.1 == name with
      | [] => some none
      | [(_, tree)] => some (some tree)
      | _ => none
  | _ => none

/-- A text that is kept. -/
def text? : Tree → Option String
  | .string text => text
  | _ => none

/-- The source of a cell: a text, or the lines of one. -/
def source? : Tree → Option String
  | .array lines => (lines.mapM text?).map String.join
  | tree => text? tree

/-- The cell of a notebook that a tree is. -/
def NotebookCell.ofTree? (tree : Tree) : Option NotebookCell := do
  match ← fields? ["cell_type", "source"] tree with
  | [some kind, some source] => return ⟨← text? kind, ← source? source⟩
  | [some kind, none] => return ⟨← text? kind, ""⟩
  | _ => none

/-- The cells of a notebook that a tree is. -/
def notebookCells? : Tree → Option (List NotebookCell)
  | .array cells => cells.mapM NotebookCell.ofTree?
  | _ => none

/-- The notebook that a tree is. -/
def Notebook.ofTree? (tree : Tree) : Option Notebook := do
  match ← fields? ["cells", "metadata"] tree with
  | [cells, metadata] =>
    let cells ← cells.elim (some []) notebookCells?
    let metadata ← metadata.elim (some .null) fun tree =>
      if tree.depth < maxDepth then Value.ofTree? tree else none
    return ⟨cells, metadata⟩
  | _ => none

/-- The language of the code cells of a notebook. -/
def Notebook.language (notebook : Notebook) : String :=
  let named := (notebook.metadata.get? "kernelspec").bind fun kernel => (kernel.get? "language").bind Value.text?
  .ofList (Text.lowerCase (named.getD "python").toList)

/-- The cells that a cell of a notebook contributes to the document. -/
def NotebookCell.cells (cell : NotebookCell) (language : String) : List Cell :=
  if cell.kind = "code" then [.ofText .code language cell.source.toList 0]
  else if cell.kind = "markdown" ∨ cell.kind = "raw" then segment cell.source.toList
  else []

/-- The cells of a notebook. Their places are counted from the start of their own cell. -/
def segmentNotebook (text : String) : List Cell :=
  match (Tree.parse? text).bind Notebook.ofTree? with
  | some notebook => notebook.cells.flatMap fun cell => cell.cells notebook.language
  | none => []

end CellGraph.Document
