import CellGraph.FileSystem

/-!
# Programs
-/

namespace CellGraph.Command

/-- How a program is run: with which arguments, in which directory, and on which input. -/
structure Invocation where
  program : String
  arguments : List String
  /-- The directory, if it is not the working directory. -/
  directory : Option Path
  input : String
  deriving DecidableEq, Repr

/-- What came of running a program. -/
inductive Execution
  | notStarted (reason : SystemError)
  | finished (success : Bool) (output errors : Text.Bytes)

/-- Runs programs, which may change the files. -/
abbrev Runner (σ : Type) := Invocation → σ → Execution × σ

/-- What is said of a program that cannot be started. -/
def startFailure (program : String) (reason : SystemError) : String :=
  "Failed to run " ++ program ++ ": " ++ reason.message

end CellGraph.Command
