import CellGraph.Dialect
import CellGraph.Path.Basic
import CellGraph.Text.Lowercase

/-!
# Configurations

What a build is told: the name of the function that attaches files, the language of script cells, which extensions
stand for which dialect, and where the project is. Extensions are compared without regard to the case of their ASCII
letters.
-/

namespace CellGraph

/-- What a build is told. -/
structure Configuration where
  /-- The function whose calls attach files. -/
  attachmentFunction : String := "FileAttachment"
  /-- The language of script cells in documents. -/
  scriptLanguage : String := "ojs"
  scriptExtensions : List String := ["ojs"]
  moduleExtensions : List String := ["js", "mjs"]
  documentExtensions : List String := ["qmd", "md", "rmd", "ipynb"]
  /-- The extension of modules that may be compiled when they are missing. -/
  recoverableExtension : String := "js"
  /-- The extension of the sources they are compiled from. -/
  typedExtension : String := "ts"
  /-- Where references that start with a slash lead from. -/
  projectRoot : Option Path := none
  /-- The files that mark the root of a project. -/
  projectMarkers : List String := ["_quarto.yml", "_quarto.yaml"]
  deriving DecidableEq, Repr

namespace Configuration

/-- Whether a path has one of the given extensions; a path without one has none of them. -/
def hasExtension (extensions : List String) (p : Path) : Bool :=
  p.extension != "" && extensions.any fun extension => Text.eqIgnoringAsciiCase extension p.extension

def isModule (config : Configuration) (p : Path) : Bool := hasExtension config.moduleExtensions p

def isScript (config : Configuration) (p : Path) : Bool := hasExtension config.scriptExtensions p

def isDocument (config : Configuration) (p : Path) : Bool := hasExtension config.documentExtensions p

/-- Whether a missing file may be compiled from a typed one beside it. -/
def isRecoverable (config : Configuration) (p : Path) : Bool :=
  Text.eqIgnoringAsciiCase p.extension config.recoverableExtension

/-- The dialect of a file: plain modules come first, then scripts, then documents. -/
def dialect? (config : Configuration) (p : Path) : Option Dialect :=
  if config.isModule p then some .plainModule
  else if config.isScript p then some .script
  else if config.isDocument p then some .document
  else none

end Configuration

end CellGraph
