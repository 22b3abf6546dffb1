import CellGraph.Dialect
import CellGraph.Script.CellNotation
import CellGraph.Script.Grammar.Module
import CellGraph.Script.References

/-!
# Extracting references

The references of a source in a dialect. A plain module is read as it stands, and only its imports count. Everything
else is first turned from the notation of cells into plain script; a source that is then no script gets a second
chance with the braces that open a line read as cells of their own.
-/

namespace CellGraph.Script

/-- The references of a source that is a script as it stands. -/
def scriptReferences? (attachmentFunction : Option String) (source : String) : Option References :=
  (parse? source).map (Node.collect attachmentFunction)

/-- The references of a source in the notation of cells. -/
def cellReferences? (attachmentFunction : String) (source : String) : Option References :=
  let plain := normalize source
  match scriptReferences? (some attachmentFunction) plain with
  | some references => some references
  | none =>
    let wrapped := wrapBlocks plain
    if wrapped = plain then none else scriptReferences? (some attachmentFunction) wrapped

/-- The references of a source in a dialect, if it can be read. -/
def references? (dialect : Dialect) (attachmentFunction : String) (source : String) : Option References :=
  match dialect with
  | .plainModule => scriptReferences? none source
  | .script | .document => cellReferences? attachmentFunction source

end CellGraph.Script
