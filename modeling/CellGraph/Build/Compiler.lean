import CellGraph.FileSystem
import CellGraph.Resource

/-!
# Compilers and what a build fails with

A compiler answers requests and may change the file system: first it lists the sources that a source needs, then it
writes their modules.
-/

namespace CellGraph

/-- A request to a compiler. -/
inductive CompilerRequest
  /-- To list the sources that a source needs, and write nothing. -/
  | list (source : Path)
  /-- To write the modules of sources. -/
  | emit (sources : List Path)
  deriving DecidableEq, Repr

/-- What a compiler answers: the listed sources or written files, or what it has to say of its failure. -/
structure CompilerAnswer where
  success : Bool
  output : String
  files : List Path
  deriving DecidableEq, Repr

/-- The answer of a compiler that failed. -/
def CompilerAnswer.failed (output : String) : CompilerAnswer := ⟨false, output, []⟩

/-- A compiler over the states of a file system. -/
abbrev Compiler (σ : Type) := CompilerRequest → σ → CompilerAnswer × σ

/-- Why a build comes to no graph. -/
inductive BuildError
  /-- A missing module could not be compiled. -/
  | compileFailure (typed : Path) (reference : String) (referent : Option Path) (output : String)
  | unknownDialect (path : Path)
  | unreadableRoot (path : Path) (reason : SystemError)
  deriving DecidableEq, Repr

/-- What is said of a build that comes to no graph. -/
def BuildError.message : BuildError → String
  | compileFailure typed reference referent output =>
    "Compiling " ++ typed.text ++ " to recover '" ++ reference ++ "' (referenced from " ++ referentName referent ++
      ") failed:\n" ++ output
  | unknownDialect path => "No dialect is registered for " ++ path.text
  | unreadableRoot path reason => "Failed to read " ++ path.text ++ ": " ++ reason.message

end CellGraph
