import CellGraph.Resource

/-!
# Lists of files

A graph as the list of the files to be copied: the names of its resources in order, each once.
-/

namespace CellGraph.Package

/-- The names of the files of a graph. -/
def plain (g : Graph) : List String := (g.resources.map Resource.filename).eraseDups

end CellGraph.Package
