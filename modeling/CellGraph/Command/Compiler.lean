import CellGraph.Build.Compiler
import CellGraph.Command.Program

/-!
# Compilers that are programs

A compiler run as a program: it prints the sources that a source needs, one a line, and it writes the module of a
source beside it. Declarations and the sources of packages are no sources.
-/

namespace CellGraph.Command

variable {σ : Type}

/-- A compiler that is a program. -/
structure CompilerProgram where
  program : String := "tsc"
  /-- The arguments before the sources whose modules are to be written. -/
  emitArguments : List String := ["--module", "es2020", "--target", "es2020", "--skipLibCheck"]
  deriving DecidableEq, Repr

/-- The lines of an output that name sources. -/
def listedSources (output : String) : List Path :=
  let lines := (Text.splitLines output.toList).map Text.trim
  (lines.filter fun line =>
    !line.isEmpty && !".d.ts".toList.isSuffixOf line && !Text.occursIn "node_modules".toList line).map Path.ofChars

namespace CompilerProgram

/-- Runs the program: its output, or all it has to say if it fails. -/
def run (c : CompilerProgram) (runner : Runner σ) (arguments : List String) (s : σ) : Except String String × σ :=
  match runner ⟨c.program, arguments, none, ""⟩ s with
  | (.notStarted reason, s) => (.error (startFailure c.program reason), s)
  | (.finished true output _, s) => (.ok (Text.decodeLossy output), s)
  | (.finished false output errors, s) => (.error (Text.decodeLossy output ++ Text.decodeLossy errors), s)

/-- The compiler that the program is. -/
def compiler (c : CompilerProgram) (fs : FileSystem σ) (runner : Runner σ) : Compiler σ
  | .list source, s =>
    match c.run runner ["--listFilesOnly", source.text] s with
    | (.ok output, s) => (⟨true, output, listedSources output⟩, s)
    | (.error output, s) => (.failed output, s)
  | .emit sources, s =>
    match c.run runner (c.emitArguments ++ sources.map Path.text) s with
    | (.ok output, s) =>
      (⟨true, output, (sources.map fun source => source.withExtension "js").filter fun file => fs.isFile file s⟩, s)
    | (.error output, s) => (.failed output, s)

end CompilerProgram

end CellGraph.Command
