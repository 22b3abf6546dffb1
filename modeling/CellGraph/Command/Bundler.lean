import CellGraph.Command.Program
import CellGraph.Package.SelfContained

/-!
# Bundlers that are programs

A bundler run as a program in the directory of a graph: it reads the entry and prints the bundle.
-/

namespace CellGraph.Command

variable {σ : Type}

/-- A bundler that is a program. -/
structure BundlerProgram where
  program : String := "esbuild"
  arguments : List String := ["--bundle", "--format=esm", "--loader=js", "--log-level=error"]
  deriving DecidableEq, Repr

/-- The bundler that the program is. -/
def BundlerProgram.bundler (b : BundlerProgram) (runner : Runner σ) : Package.Bundler σ := fun entry directory s =>
  match runner ⟨b.program, b.arguments, some directory, entry⟩ s with
  | (.notStarted reason, s) => (.error (startFailure b.program reason), s)
  | (.finished true output _, s) => (.ok (Text.decodeLossy output), s)
  | (.finished false _ errors, s) => (.error (Text.decodeLossy errors), s)

end CellGraph.Command
