import CellGraph.Build.Traversal

/-!
# Building graphs

A builder turns a root, or a file on disk, into a graph. It goes from one `BuildState` to the next, whether the build
comes to a graph or not: the files may have changed, compiled files may be registered, and every build that was begun
takes a number. All of it is bounded by `fuel`, the most resources that one build visits.
-/

namespace CellGraph

variable {σ : Type}

/-- What builds share. -/
structure BuildState (σ : Type) where
  disk : σ
  registry : Registry
  /-- How many builds have been begun. -/
  builds : Nat

/-- What came of a build, and the state it left; nothing if it ran out of fuel. -/
abbrev Outcome (σ α : Type) := Option (Except BuildError α × BuildState σ)

namespace Builder

/-- The build of a root with the given number. -/
def buildOf (b : Builder σ) (root : Root) (number : Nat) : Build σ where
  toBuilder := b
  roots := .make b.workingDirectory root.directory b.config.projectRoot
  id := root.buildId number

/-- The graph of a root. -/
def build (b : Builder σ) (fuel : Nat) (root : Root) (s : BuildState σ) : Outcome σ Graph :=
  let build := b.buildOf root s.builds
  match build.run fuel (build.seed root s.disk s.registry) with
  | none => none
  | some (some e, t) => some (.error e, ⟨t.disk, t.registry, s.builds + 1⟩)
  | some (none, t) => some (.ok (build.graph (build.settleAttachments t)), ⟨t.disk, t.registry, s.builds + 1⟩)

/-- The text of a file that a build starts from. -/
def readRoot (b : Builder σ) (p : Path) (s : BuildState σ) : Except BuildError String :=
  (b.files.readText p s.disk).mapError (.unreadableRoot p)

/-- The graph of a document. -/
def buildDocument (b : Builder σ) (fuel : Nat) (p : Path) (s : BuildState σ) : Outcome σ Graph :=
  match b.readRoot p s with
  | .error e => some (.error e, s)
  | .ok text =>
    b.build fuel { Root.document (Document.scriptCells b.config p text) p.directory with path := some p } s

/-- The graph of a document, a script or a plain module. -/
def buildFile (b : Builder σ) (fuel : Nat) (p : Path) (s : BuildState σ) : Outcome σ Graph :=
  match b.config.dialect? p with
  | none => some (.error (.unknownDialect p), s)
  | some .document => b.buildDocument fuel p s
  | some dialect =>
    match b.readRoot p s with
    | .error e => some (.error e, s)
    | .ok text => b.build fuel { Root.script text p.directory with dialect, path := some p } s

end Builder

end CellGraph
