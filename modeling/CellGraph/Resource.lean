import CellGraph.Reference

/-!
# Resources and graphs

A resource is a file that a document needs, with the reference that first led to it. A build finds a `Graph`: the
resources in the order they were accepted, and what was amiss.
-/

namespace CellGraph

/-- How a resource is referred to. -/
inductive ResourceKind
  | imported
  | attached
  deriving DecidableEq, Repr

/-- A file that a document needs. -/
structure Resource where
  /-- Its name as seen from the document. -/
  filename : String
  /-- The file with the reference to it, if that is a file. -/
  referent : Option Path
  /-- The reference as written. -/
  reference : String
  anchor : Anchor
  kind : ResourceKind
  path : Path
  deriving DecidableEq, Repr

def Resource.isImport (r : Resource) : Bool := r.kind == .imported

def Resource.isAttachment (r : Resource) : Bool := r.kind == .attached

/-- The name of the file with a reference. -/
def referentName (referent : Option Path) : String := (referent.map Path.text).getD "<root>"

/-- What may be amiss in a build. -/
inductive DiagnosticKind
  /-- A source that could not be read contributed no references. -/
  | parseFailure
  /-- A reference led to no file. -/
  | unresolvedReference
  deriving DecidableEq, Repr

/-- What is amiss in a build. -/
structure Diagnostic where
  kind : DiagnosticKind
  referent : Option Path
  reference : String
  path : Option Path
  message : String
  deriving DecidableEq, Repr

namespace Diagnostic

/-- A reference that led to no file. -/
def unresolved (r : Resource) (reason : String) : Diagnostic :=
  ⟨.unresolvedReference, r.referent, r.reference, some r.path, reason⟩

/-- A source that could not be read as a script. -/
def unparsable (referent : Option Path) : Diagnostic := ⟨.parseFailure, referent, "", none, "no script"⟩

/-- What is said of what is amiss. -/
def text (d : Diagnostic) : String :=
  match d.kind with
  | .unresolvedReference =>
    "Unable to resolve '" ++ d.reference ++ "' referenced from " ++ referentName d.referent ++ ": " ++ d.message
  | .parseFailure => "Skipped unparsable script in " ++ referentName d.referent ++ ": " ++ d.message

end Diagnostic

/-- What a build found. -/
structure Graph where
  /-- The name of the build. -/
  buildId : String
  /-- The directory that file names are relative to. -/
  rootDirectory : Path
  resources : List Resource
  diagnostics : List Diagnostic
  /-- The files that were compiled on the way. -/
  compiledFiles : List Path
  deriving DecidableEq, Repr

namespace Graph

def imports (g : Graph) : List Resource := g.resources.filter Resource.isImport

def attachments (g : Graph) : List Resource := g.resources.filter Resource.isAttachment

/-- The references that led to no file. -/
def unresolved (g : Graph) : List Diagnostic := g.diagnostics.filter fun d => d.kind == .unresolvedReference

end Graph

end CellGraph
