import CellGraph.Path.Encoding
import CellGraph.Path.Normal
import CellGraph.Path.Relative
import CellGraph.Script.References

/-!
# References to files

A reference is a text that names a file: from the directory of the file it stands in, if it starts with a point, and
from the base of the project if it starts with a slash. `Roots` holds the two directories a build takes its names
from: file names are relative to the directory of its document, or start with a slash where the reference did.
References and file names are texts, so both depend on how texts stand in paths.
-/

namespace CellGraph

/-- What a reference is relative to. -/
inductive Anchor
  /-- The directory of the file the reference stands in. -/
  | directory
  /-- The base of the project. -/
  | base
  deriving DecidableEq, Repr

/-- A reference that names no local file. -/
structure UnsupportedReference where
  reference : String
  deriving DecidableEq, Repr

/-- What is said of a reference that names no local file. -/
def UnsupportedReference.message (e : UnsupportedReference) : String :=
  "'" ++ e.reference ++ "' is not a local file reference"

/-- Where a reference leads, and what it is relative to. -/
structure Target where
  path : Path
  anchor : Anchor
  deriving DecidableEq, Repr

/-- Where a reference in a file of the directory `origin` leads, in a project with the given base. -/
def Encoding.resolve (e : Encoding) (reference : String) (origin : Path) (base : Option Path) :
    Except UnsupportedReference Target :=
  match reference.toList with
  | '/' :: _ => .ok ⟨((base.getD origin).join (e.path ("." ++ reference))).normalize, .base⟩
  | '.' :: _ => .ok ⟨(origin.join (e.path reference)).normalize, .directory⟩
  | _ => .error ⟨reference⟩

/-- Where a reference leads in paths of characters. -/
def resolve (reference : String) (origin : Path) (base : Option Path) : Except UnsupportedReference Target :=
  Encoding.characters.resolve reference origin base

/-- The name of an attached file as a reference, unless it is an address elsewhere. A bare name stands for a file
beside the one that attaches it. -/
def attachmentReference? (name : String) : Option String :=
  let name := Text.trim name.toList
  if name.isEmpty || Text.occursIn "://".toList name || "data:".toList.isPrefixOf name then none
  else if Script.isLocal (.ofList name) then some (.ofList name)
  else some ("./" ++ .ofList name)

/-- Whether a text starts with two points. -/
def startsUpward (text : String) : Bool := "..".toList.isPrefixOf text.toList

/-- The directories that the names of a build are relative to. -/
structure Roots where
  /-- The directory of the document. -/
  directory : Path
  /-- The base of the project. -/
  base : Path
  deriving DecidableEq, Repr

namespace Roots

/-- The directories of a build, absolute and normal. Without a project its base is the directory itself. -/
def make (workingDirectory directory : Path) (project : Option Path) : Roots :=
  let directory := directory.absolute workingDirectory
  { directory, base := (project.map fun p => p.absolute workingDirectory).getD directory }

end Roots

namespace Encoding

/-- The name of a file seen from the directory of the document. -/
def directoryName (e : Encoding) (roots : Roots) (p : Path) : String :=
  match p.from? roots.directory with
  | some way => if startsUpward (e.slashed way) then e.slashed way else "./" ++ e.slashed way
  | none => e.slashed p

/-- The name of a file that a reference with the given anchor leads to. -/
def filename (e : Encoding) (roots : Roots) (p : Path) : Anchor → String
  | .directory => e.directoryName roots p
  | .base =>
    match p.from? roots.base with
    | some way => if startsUpward (e.slashed way) then e.directoryName roots p else "/" ++ e.slashed way
    | none => e.directoryName roots p

end Encoding

namespace Roots

/-- The name of a file in paths of characters. -/
def filename (roots : Roots) (p : Path) (anchor : Anchor) : String := Encoding.characters.filename roots p anchor

/-- Where a reference in a file of the directory `origin` leads. -/
def resolve (roots : Roots) (reference : String) (origin : Path) : Except UnsupportedReference Target :=
  CellGraph.resolve reference origin (some roots.base)

end Roots

end CellGraph
