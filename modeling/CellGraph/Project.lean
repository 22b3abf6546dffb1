import CellGraph.Build.Builder

/-!
# Projects

A project is a directory. Its documents are the files in it that hold script cells; directories whose name starts with
a point or an underscore, and those of packages, are left out. All of them are built with the directory as the base of
the project.
-/

namespace CellGraph

variable {σ : Type}

/-- Whether directories of this name are left out of projects. -/
def isSkippedDirectory (name : String) : Bool :=
  match name.toList with
  | c :: _ => c == '.' || c == '_' || name == "node_modules"
  | [] => false

/-- Whether a file is a document that holds script cells. -/
def isScriptDocument (fs : FileSystem σ) (config : Configuration) (s : σ) (p : Path) : Bool :=
  config.isDocument p &&
    match fs.readText p s with
    | .ok text => Document.scriptCells config p text != []
    | .error _ => false

/-- The documents of a project that hold script cells, in the order of their paths. -/
def projectDocuments (fs : FileSystem σ) (config : Configuration) (project : Path) (s : σ) : List Path :=
  ((fs.filesBelow isSkippedDirectory project s).filter (isScriptDocument fs config s)).mergeSort
    fun p q => !q.before p

/-- Whether a directory holds a file that marks the root of a project. -/
def isProject (fs : FileSystem σ) (config : Configuration) (s : σ) (directory : Path) : Bool :=
  config.projectMarkers.any fun marker => fs.isFile (directory.join ⟨marker⟩) s

/-- The nearest directory, from the given one upward, that is the root of a project. -/
def nearestProject? (fs : FileSystem σ) (config : Configuration) (directory : Path) (s : σ) : Option Path :=
  directory.ancestors.find? (isProject fs config s)

namespace Builder

/-- The graphs of documents in turn, up to the first that comes to none. -/
def buildDocuments (b : Builder σ) (fuel : Nat) : List Path → BuildState σ → Outcome σ (List (Path × Graph))
  | [], s => some (.ok [], s)
  | p :: ps, s =>
    match b.buildDocument fuel p s with
    | none => none
    | some (.error e, s) => some (.error e, s)
    | some (.ok graph, s) =>
      match b.buildDocuments fuel ps s with
      | none => none
      | some (.error e, s) => some (.error e, s)
      | some (.ok graphs, s) => some (.ok ((p, graph) :: graphs), s)

/-- The graphs of the documents of a project. -/
def buildProject (b : Builder σ) (fuel : Nat) (project : Path) (s : BuildState σ) : Outcome σ (List (Path × Graph)) :=
  let config := { b.config with projectRoot := some project }
  { b with config }.buildDocuments fuel (projectDocuments b.files config project s.disk) s

end Builder

end CellGraph
