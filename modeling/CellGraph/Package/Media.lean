import CellGraph.Package.Base64
import CellGraph.Path.Basic
import CellGraph.Text.Lowercase

/-!
# Media types and inlined files

The media type of a file follows from its extension; a file of another extension is plain text if its bytes are a
text. An inlined file is a `data:` address that holds its bytes.
-/

namespace CellGraph.Package

/-- The media types of extensions. -/
def mediaTypes : List (String × String) := [
  ("js", "application/javascript"), ("mjs", "application/javascript"), ("ojs", "text/plain"),
  ("json", "application/json"), ("topojson", "application/json"), ("geojson", "application/geo+json"),
  ("csv", "text/csv"), ("tsv", "text/tab-separated-values"), ("txt", "text/plain"), ("md", "text/markdown"),
  ("html", "text/html"), ("htm", "text/html"), ("css", "text/css"), ("xml", "application/xml"),
  ("svg", "image/svg+xml"), ("png", "image/png"), ("jpg", "image/jpeg"), ("jpeg", "image/jpeg"),
  ("gif", "image/gif"), ("webp", "image/webp"), ("pdf", "application/pdf"), ("zip", "application/zip"),
  ("xlsx", "application/vnd.openxmlformats-officedocument.spreadsheetml.sheet"),
  ("arrow", "application/vnd.apache.arrow.file"), ("parquet", "application/vnd.apache.parquet"),
  ("sqlite", "application/x-sqlite3"), ("db", "application/x-sqlite3"), ("wasm", "application/wasm")]

/-- The media type of a file. -/
def mediaType (p : Path) (content : Text.Bytes) : String :=
  match mediaTypes.lookup (.ofList (Text.lowerCase p.extension.toList)) with
  | some type => type
  | none => if (Text.decode? content).isSome then "text/plain" else "application/octet-stream"

/-- An inlined file. -/
structure Inlined where
  mediaType : String
  payload : String
  deriving DecidableEq, Repr

/-- Inlines a content of the given media type. -/
def Inlined.make (mediaType : String) (content : Text.Bytes) : Inlined :=
  ⟨mediaType, "data:" ++ mediaType ++ ";base64," ++ .ofList (base64 content)⟩

/-- Inlines the content of a file. -/
def Inlined.ofFile (p : Path) (content : Text.Bytes) : Inlined := .make (Package.mediaType p content) content

end CellGraph.Package
