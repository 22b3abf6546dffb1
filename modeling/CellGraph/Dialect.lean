/-!
# Dialects

How the content of a file is read.
-/

namespace CellGraph

/-- How the content of a file is read. -/
inductive Dialect
  /-- Cells of a notebook program, in the notation of cells. -/
  | script
  /-- A plain module. -/
  | plainModule
  /-- A document that holds script cells. -/
  | document
  deriving DecidableEq, Repr

end CellGraph
