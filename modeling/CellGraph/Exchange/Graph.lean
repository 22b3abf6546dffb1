import CellGraph.Exchange.Configuration
import CellGraph.Resource

/-!
# Graphs in JSON
-/

namespace CellGraph

open Json

/-- The names of the anchors. -/
def Anchor.names : List (String × Anchor) := [("relative", .directory), ("root-relative", .base)]

/-- The name of an anchor. -/
def Anchor.name : Anchor → String
  | directory => "relative"
  | base => "root-relative"

/-- Reads an anchor. -/
def Anchor.decode : Decoder Anchor := Decoder.variant Anchor.names

/-- The names of the kinds of resources. -/
def ResourceKind.names : List (String × ResourceKind) := [("import", .imported), ("attachment", .attached)]

/-- The name of a kind of resources. -/
def ResourceKind.name : ResourceKind → String
  | imported => "import"
  | attached => "attachment"

namespace Resource

/-- How to read a resource. -/
def record : Record Resource :=
  Resource.mk
    <$> .required "filename" Decoder.text
    <*> .nullable "referent" Path.decode
    <*> .required "importPath" Decoder.text
    <*> .required "pathType" Anchor.decode
    <*> .required "resourceType" (Decoder.variant ResourceKind.names)
    <*> .required "path" Path.decode

/-- Reads a resource. -/
def decode : Decoder Resource := record.decode "ResourceDescription"

/-- The value of a resource. -/
def encode (r : Resource) : Value :=
  .ofMembers [
    ("filename", .string r.filename),
    ("referent", .ofText? (r.referent.map Path.text)),
    ("importPath", .string r.reference),
    ("pathType", .string r.anchor.name),
    ("resourceType", .string r.kind.name),
    ("path", .string r.path.text)]

end Resource

/-- The names of the kinds of diagnostics. -/
def DiagnosticKind.names : List (String × DiagnosticKind) :=
  [("parseFailure", .parseFailure), ("unresolvedReference", .unresolvedReference)]

/-- The name of a kind of diagnostics. -/
def DiagnosticKind.name : DiagnosticKind → String
  | parseFailure => "parseFailure"
  | unresolvedReference => "unresolvedReference"

namespace Diagnostic

/-- How to read a diagnostic. -/
def record : Record Diagnostic :=
  Diagnostic.mk
    <$> .required "kind" (Decoder.variant DiagnosticKind.names)
    <*> .nullable "referent" Path.decode
    <*> .required "importPath" Decoder.text
    <*> .nullable "path" Path.decode
    <*> .required "message" Decoder.text

/-- Reads a diagnostic. -/
def decode : Decoder Diagnostic := record.decode "Diagnostic"

/-- The value of a diagnostic. -/
def encode (d : Diagnostic) : Value :=
  .ofMembers [
    ("kind", .string d.kind.name),
    ("referent", .ofText? (d.referent.map Path.text)),
    ("importPath", .string d.reference),
    ("path", .ofText? (d.path.map Path.text)),
    ("message", .string d.message)]

end Diagnostic

namespace Graph

/-- How to read a graph. -/
def record : Record Graph :=
  Graph.mk
    <$> .required "buildId" Decoder.text
    <*> .required "rootDir" Path.decode
    <*> .required "resources" (Decoder.list Resource.decode)
    <*> .required "diagnostics" (Decoder.list Diagnostic.decode)
    <*> .required "sideEffectFiles" (Decoder.list Path.decode)

/-- Reads a graph. -/
def decode : Decoder Graph := record.decode "ResolvedGraph"

/-- The value of a graph. -/
def encode (g : Graph) : Value :=
  .ofMembers [
    ("buildId", .string g.buildId),
    ("rootDir", .string g.rootDirectory.text),
    ("resources", .array (g.resources.map Resource.encode)),
    ("diagnostics", .array (g.diagnostics.map Diagnostic.encode)),
    ("sideEffectFiles", .ofTexts (g.compiledFiles.map Path.text))]

end Graph

end CellGraph
