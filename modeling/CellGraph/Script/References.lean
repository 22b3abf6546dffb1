import CellGraph.Script.Tree

/-!
# The references of a script

What a script refers to: the local sources of its imports and re-exports, and the files it attaches by calling the
attachment function with a literal name. A walk over the syntax tree collects both, a call before its own parts, so
both are in the order of the trees inside the tree (`imports_collect`, `attachments_collect`).
-/

namespace CellGraph.Script

/-- What a script refers to, in source order: the sources of its imports and the names of its attachments. -/
structure References where
  imports : List String
  attachments : List String
  deriving DecidableEq, Repr

namespace References

/-- No references. -/
def empty : References := ⟨[], []⟩

/-- The references of one script and then those of another. -/
def append (a b : References) : References := ⟨a.imports ++ b.imports, a.attachments ++ b.attachments⟩

instance : Append References := ⟨append⟩

@[simp] theorem imports_append (a b : References) : (a ++ b).imports = a.imports ++ b.imports := rfl

@[simp] theorem attachments_append (a b : References) : (a ++ b).attachments = a.attachments ++ b.attachments := rfl

end References

/-- Whether a source names a local file and not a package: it starts with a point or a slash. -/
def isLocal (source : String) : Bool :=
  match source.toList with
  | c :: _ => c == '.' || c == '/'
  | [] => false

namespace Node

/-- The source of the module that a declaration takes names from. -/
def moduleSource? : Node → Option String
  | mk (.importDeclaration source) _ => some source
  | mk (.exportAll source _) _ => some source
  | mk (.exportNamed source _) _ => source
  | _ => none

/-- The text of a string literal, or of a template without substitutions. -/
def literalText? : Node → Option String
  | mk (.string value) _ => some value
  | mk (.template (chunk :: _)) [] => chunk
  | _ => none

/-- The name of the file that a call of the function `attachmentFunction` attaches. -/
def attachment? (attachmentFunction : String) : Node → Option String
  | mk .call (mk (.name function) _ :: argument :: _) =>
    if function = attachmentFunction then argument.literalText? else none
  | _ => none

/-- What a tree refers to, apart from its parts. Without an attachment function there are no attachments. -/
def ownReferences (attachmentFunction : Option String) (node : Node) : References where
  imports := (node.moduleSource?.filter isLocal).toList
  attachments := (attachmentFunction.bind fun function => node.attachment? function).toList

mutual

/-- The references of a tree: its own, then those of its parts. -/
def collect (attachmentFunction : Option String) : Node → References
  | mk kind parts => (mk kind parts).ownReferences attachmentFunction ++ collectAll attachmentFunction parts

/-- The references of a list of trees. -/
def collectAll (attachmentFunction : Option String) : List Node → References
  | [] => .empty
  | node :: nodes => collect attachmentFunction node ++ collectAll attachmentFunction nodes

end

mutual

theorem imports_collect (attachmentFunction : Option String) : ∀ node : Node,
    (node.collect attachmentFunction).imports = node.preorder.filterMap fun part => part.moduleSource?.filter isLocal
  | mk kind parts => by
    rw [collect, preorder, References.imports_append, imports_collectAll attachmentFunction parts]
    cases h : (mk kind parts).moduleSource?.filter isLocal <;> simp [ownReferences, h]

theorem imports_collectAll (attachmentFunction : Option String) : ∀ nodes : List Node,
    (collectAll attachmentFunction nodes).imports
      = (preorderAll nodes).filterMap fun part => part.moduleSource?.filter isLocal
  | [] => rfl
  | node :: nodes => by
    rw [collectAll, preorderAll, References.imports_append, imports_collect attachmentFunction node,
      imports_collectAll attachmentFunction nodes, List.filterMap_append]

end

mutual

theorem attachments_collect (attachmentFunction : Option String) : ∀ node : Node,
    (node.collect attachmentFunction).attachments
      = node.preorder.filterMap fun part => attachmentFunction.bind fun function => part.attachment? function
  | mk kind parts => by
    rw [collect, preorder, References.attachments_append, attachments_collectAll attachmentFunction parts]
    cases h : attachmentFunction.bind fun function => (mk kind parts).attachment? function <;>
      simp [ownReferences, h]

theorem attachments_collectAll (attachmentFunction : Option String) : ∀ nodes : List Node,
    (collectAll attachmentFunction nodes).attachments
      = (preorderAll nodes).filterMap fun part => attachmentFunction.bind fun function => part.attachment? function
  | [] => rfl
  | node :: nodes => by
    rw [collectAll, preorderAll, References.attachments_append, attachments_collect attachmentFunction node,
      attachments_collectAll attachmentFunction nodes, List.filterMap_append]

end

end Node

end CellGraph.Script
