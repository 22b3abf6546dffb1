import CellGraph.Configuration
import CellGraph.Document.Notebook

/-!
# The script cells of a document
-/

namespace CellGraph.Document

/-- Whether a path leads to a notebook. -/
def isNotebook (p : Path) : Bool := p.extension?.any fun extension => Text.eqIgnoringAsciiCase extension "ipynb"

/-- The cells of a document. -/
def cells (p : Path) (text : String) : List Cell :=
  if isNotebook p then segmentNotebook text else segment text.toList

/-- Whether a cell is in the language of scripts. -/
def isScriptCell (config : Configuration) (cell : Cell) : Bool :=
  cell.kind == .code && cell.language == config.scriptLanguage

/-- The sources of the script cells of a document, in order. -/
def scriptCells (config : Configuration) (p : Path) (text : String) : List String :=
  ((cells p text).filter (isScriptCell config)).map fun cell => .ofList cell.source

end CellGraph.Document
