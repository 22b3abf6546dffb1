import CellGraph.Build.Cleanup
import CellGraph.Build.Recovery
import CellGraph.Build.Root
import CellGraph.Document.ScriptCells
import CellGraph.Script.Extraction

/-!
# Traversing references

A traversal visits every file that a root leads to once, in the order in which references to them are found. Resources
wait in `pending` until they are visited, and those whose file is there are kept in `accepted`; the first reference to
a file describes it. Imports are read and lead on, attachments are only checked for existence. What script modules
attach is looked up at the end.
-/

namespace CellGraph

variable {σ : Type}

/-- The means of a build. -/
structure Builder (σ : Type) where
  files : FileSystem σ
  workingDirectory : Path
  config : Configuration
  compiler : Option (Compiler σ)
  /-- Whether compiled files are registered for removal. -/
  registers : Bool

/-- One build: its means, its directories and its name. -/
structure Build (σ : Type) extends Builder σ where
  roots : Roots
  id : String

/-- How far a traversal has come. -/
structure Traversal (σ : Type) where
  /-- The state of the files. -/
  disk : σ
  registry : Registry
  /-- Resources that wait to be visited. -/
  pending : List Resource
  /-- The paths that have been visited, and that of the root. -/
  visited : List Path
  /-- The resources that were found, in order. -/
  accepted : List Resource
  /-- What the visited script modules attach. -/
  attachedBy : List (Path × List String)
  diagnostics : List Diagnostic
  compiledFiles : List Path

/-- Whether a path is among others. -/
def Path.isAmong (p : Path) (paths : List Path) : Bool := paths.any p.same

/-- Whether one of the resources is at a path. -/
def Path.isPathOf (p : Path) (resources : List Resource) : Bool := resources.any fun r => p.same r.path

namespace Traversal

/-- A traversal that has seen nothing yet but the path of its root. -/
def start (disk : σ) (registry : Registry) (root : Option Path) : Traversal σ where
  disk
  registry
  pending := []
  visited := root.toList
  accepted := []
  attachedBy := []
  diagnostics := []
  compiledFiles := []

/-- Whether a path has been visited, waits to be, or is the path of a resource. -/
def knows (t : Traversal σ) (p : Path) : Bool :=
  p.isAmong t.visited || p.isPathOf t.pending || p.isPathOf t.accepted

/-- Lets a resource wait unless its path is known. -/
def enqueue (t : Traversal σ) (r : Resource) : Traversal σ :=
  if t.knows r.path then t else { t with pending := t.pending ++ [r] }

/-- Takes note that there is nothing at the path of a resource. -/
def noteMissing (t : Traversal σ) (r : Resource) (reason : String) : Traversal σ :=
  { t with diagnostics := t.diagnostics ++ [.unresolved r reason] }

/-- Keeps a resource. -/
def accept (t : Traversal σ) (r : Resource) : Traversal σ := { t with accepted := t.accepted ++ [r] }

/-- Takes note that a path is visited. -/
def visit (t : Traversal σ) (p : Path) : Traversal σ := { t with visited := t.visited ++ [p] }

/-- Keeps a resource without visiting it, unless its path is known. -/
def adopt (t : Traversal σ) (r : Resource) : Traversal σ :=
  if t.knows r.path then t else (t.visit r.path).accept r

end Traversal

/-- The references of cells, and what is amiss with those that cannot be read. -/
def readCells (dialect : Dialect) (attachmentFunction : String) (referent : Option Path) :
    List String → Script.References × List Diagnostic
  | [] => (.empty, [])
  | cell :: cells =>
    let (references, diagnostics) := readCells dialect attachmentFunction referent cells
    match Script.references? dialect attachmentFunction cell with
    | some own => (own ++ references, diagnostics)
    | none => (references, .unparsable referent :: diagnostics)

/-- The resource that a reference leads to, given as it is written and as it is to be followed. -/
def resource? (roots : Roots) (origin : Path) (referent : Option Path) (kind : ResourceKind)
    (written reference : String) : Option Resource :=
  match roots.resolve reference origin with
  | .ok target => some {
      filename := roots.filename target.path target.anchor
      referent
      reference := written
      anchor := target.anchor
      kind
      path := target.path }
  | .error _ => none

/-- The resource that an import leads to. -/
def importedResource? (roots : Roots) (origin : Path) (referent : Option Path) (source : String) : Option Resource :=
  resource? roots origin referent .imported source source

/-- The resource that an attachment leads to. -/
def attachedResource? (roots : Roots) (origin : Path) (referent : Option Path) (name : String) : Option Resource :=
  (attachmentReference? name).bind (resource? roots origin referent .attached name)

namespace Build

/-- Lets resources for the imports of a file wait. -/
def enqueueImports (b : Build σ) (origin : Path) (referent : Option Path) (sources : List String)
    (t : Traversal σ) : Traversal σ :=
  (sources.filterMap (importedResource? b.roots origin referent)).foldl Traversal.enqueue t

/-- Lets resources for the attachments of a file wait. -/
def enqueueAttachments (b : Build σ) (origin : Path) (referent : Option Path) (names : List String)
    (t : Traversal σ) : Traversal σ :=
  (names.filterMap (attachedResource? b.roots origin referent)).foldl Traversal.enqueue t

/-- Reads the cells of a file and takes note of those that cannot be read. -/
def readSources (b : Build σ) (dialect : Dialect) (referent : Option Path) (cells : List String)
    (t : Traversal σ) : Script.References × Traversal σ :=
  let (references, diagnostics) := readCells dialect b.config.attachmentFunction referent cells
  (references, { t with diagnostics := t.diagnostics ++ diagnostics })

/-- What came of reading a module. -/
inductive Reading
  /-- The file is there, or has been compiled together with its siblings. -/
  | source (text : String) (siblings : List Resource)
  /-- There is no file. -/
  | missing (reason : SystemError)
  | failed (error : BuildError)

/-- Registers the files that were compiled for a module. -/
def keepEmitted (b : Build σ) (emitted : List Path) (t : Traversal σ) : Traversal σ :=
  { t with
    registry := if b.registers then t.registry.register b.id emitted else t.registry
    compiledFiles := t.compiledFiles ++ emitted }

/-- Reads a module; one that cannot be read is compiled, if its extension and the means of the build allow it. -/
def obtainSource (b : Build σ) (r : Resource) (t : Traversal σ) : Reading × Traversal σ :=
  match b.files.readText r.path t.disk with
  | .ok text => (.source text [], t)
  | .error reason =>
    if b.config.isRecoverable r.path then
      match recover b.files b.config b.roots b.compiler r t.disk with
      | (.error e, disk) => (.failed e, { t with disk })
      | (.ok none, disk) => (.missing reason, { t with disk })
      | (.ok (some recovered), disk) =>
        (.source recovered.source recovered.siblings, b.keepEmitted recovered.emitted { t with disk })
    else (.missing reason, t)

/-- The cells of a file as it is read in a dialect: those of a document are scripts. -/
def fileCells (b : Build σ) (dialect : Dialect) (p : Path) (text : String) : Dialect × List String :=
  match dialect with
  | .document => (.script, Document.scriptCells b.config p text)
  | dialect => (dialect, [text])

/-- Follows the references of a module that has been read. -/
def expand (b : Build σ) (r : Resource) (dialect : Dialect) (text : String) (t : Traversal σ) : Traversal σ :=
  let (cellDialect, cells) := b.fileCells dialect r.path text
  let (references, t) := b.readSources cellDialect (some r.path) cells t
  let t := b.enqueueImports r.path.directory (some r.path) references.imports t
  if dialect = .script ∧ references.attachments ≠ [] then
    { t with attachedBy := t.attachedBy ++ [(r.path, references.attachments)] }
  else t

/-- Checks that an attached file is there. -/
def visitAttachment (b : Build σ) (r : Resource) (t : Traversal σ) : Traversal σ :=
  if b.files.isFile r.path t.disk then t.accept r else t.noteMissing r "attachment not found"

/-- Visits an import. -/
def visitImport (b : Build σ) (r : Resource) (t : Traversal σ) : Option BuildError × Traversal σ :=
  match b.obtainSource r t with
  | (.failed e, t) => (some e, t)
  | (.missing reason, t) => (none, t.noteMissing r reason.message)
  | (.source text siblings, t) =>
    match b.config.dialect? r.path with
    | none => (some (.unknownDialect r.path), t)
    | some dialect => (none, b.expand r dialect text (siblings.foldl Traversal.adopt (t.accept r)))

/-- Visits a resource that has waited. -/
def step (b : Build σ) (r : Resource) (t : Traversal σ) : Option BuildError × Traversal σ :=
  if r.path.isAmong t.visited then (none, t)
  else
    let t := t.visit r.path
    if r.isAttachment then (none, b.visitAttachment r t) else b.visitImport r t

/-- Visits resources until none waits or one fails the build; `fuel` bounds how many. -/
def run (b : Build σ) : Nat → Traversal σ → Option (Option BuildError × Traversal σ)
  | 0, t => if t.pending = [] then some (none, t) else none
  | fuel + 1, t =>
    match t.pending with
    | [] => some (none, t)
    | r :: pending =>
      match b.step r { t with pending } with
      | (some e, t) => some (some e, t)
      | (none, t) => b.run fuel t

/-- Looks up a file that a script module attaches, unless it is known. -/
def settleAttachment (b : Build σ) (t : Traversal σ) (r : Resource) : Traversal σ :=
  if t.knows r.path then t else b.visitAttachment r (t.visit r.path)

/-- Looks up what one script module attaches, if it is imported. -/
def settleAttachmentsOf (b : Build σ) (t : Traversal σ) (m : Path × List String) : Traversal σ :=
  if t.accepted.any fun r => m.1.same r.path && r.isImport then
    (m.2.filterMap (attachedResource? b.roots m.1.directory (some m.1))).foldl b.settleAttachment t
  else t

/-- Looks up what the script modules attach. -/
def settleAttachments (b : Build σ) (t : Traversal σ) : Traversal σ :=
  t.attachedBy.foldl b.settleAttachmentsOf t

/-- The graph of a traversal: the documents it went through are left out. -/
def graph (b : Build σ) (t : Traversal σ) : Graph where
  buildId := b.id
  rootDirectory := b.roots.directory
  resources := t.accepted.filter fun r => !(r.isImport && b.config.isDocument r.path)
  diagnostics := t.diagnostics
  compiledFiles := t.compiledFiles

/-- The traversal that a root starts. -/
def seed (b : Build σ) (root : Root) (disk : σ) (registry : Registry) : Traversal σ :=
  let referent := root.path.map fun p => p.absolute b.workingDirectory
  let (references, t) := b.readSources root.dialect referent root.cells (.start disk registry referent)
  b.enqueueAttachments b.roots.directory referent references.attachments
    (b.enqueueImports b.roots.directory referent references.imports t)

end Build

end CellGraph
