import CellGraph.Configuration
import CellGraph.Digest.Sha256

/-!
# Where a build starts

A root is a list of cells with the directory that their references lead from, and the file they come from, if any.
Every build has a name: a digest of its directory and cells, and a number of its own.
-/

namespace CellGraph

/-- Where a build starts. -/
structure Root where
  cells : List String
  directory : Path
  dialect : Dialect
  /-- The file the cells come from. -/
  path : Option Path
  deriving DecidableEq, Repr

namespace Root

/-- A script of its own. -/
def script (source : String) (directory : Path) : Root := ⟨[source], directory, .script, none⟩

/-- The script cells of a document. -/
def document (cells : List String) (directory : Path) : Root := ⟨cells, directory, .document, none⟩

/-- The part of a build's name that depends on its root alone. -/
def hash (root : Root) : String :=
  let bytes := Text.encode root.directory.text ++ root.cells.flatMap Text.encode
  .ofList ((Digest.hexText (Digest.sha256 bytes)).take 12)

/-- The name of the build of a root with the given number. -/
def buildId (root : Root) (number : Nat) : String := root.hash ++ "-" ++ toString number

end Root

end CellGraph
