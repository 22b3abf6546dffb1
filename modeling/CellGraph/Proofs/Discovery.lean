import CellGraph.Proofs.FirstSeen
import Mathlib.Data.Nat.Init

/-!
# Discovering resources

What a root leads to, said without a queue. The references of a root come first, its imports and then its attachments;
behind them come the imports of every file that is imported, in the order of the first references to these files. This
is a list that its own beginning determines, so it is approached in rounds: `discovered` reads, in each round, the files
that the list of the last round leads to. Each round only adds at the end (`discovered_isPrefix`); a round that adds
nothing is the last one (`discovered_eq_of_exhausted`). The attachments of script modules follow, and `kept` takes the
first reference to each path. `reading` is the graph of what is there.
-/

namespace CellGraph.Build

variable {σ : Type} (b : Build σ)

/-! ## What a file refers to -/

/-- The references of a file that is read in its dialect, and what is amiss with its cells. -/
def readFile (p : Path) (text : String) : Script.References × List Diagnostic :=
  match b.config.dialect? p with
  | none => (.empty, [])
  | some dialect =>
    let (cellDialect, cells) := b.fileCells dialect p text
    readCells cellDialect b.config.attachmentFunction (some p) cells

/-- What the imports of a file with a text lead to. -/
def importedBy (p : Path) (text : String) : List Resource :=
  (b.readFile p text).1.imports.filterMap (importedResource? b.roots p.directory (some p))

/-- What a script module with a text attaches; other files attach nothing. -/
def attachedBy (p : Path) (text : String) : List Resource :=
  if b.config.dialect? p = some .script then
    (b.readFile p text).1.attachments.filterMap (attachedResource? b.roots p.directory (some p))
  else []

/-- The path of a root, absolute and normal. -/
def rootPath (root : Root) : Option Path := root.path.map fun p => p.absolute b.workingDirectory

/-- The references of the cells of a root, and what is amiss with them. -/
def readRoot (root : Root) : Script.References × List Diagnostic :=
  readCells root.dialect b.config.attachmentFunction (b.rootPath root) root.cells

/-- What the imports of a root lead to. -/
def rootImports (root : Root) : List Resource :=
  (b.readRoot root).1.imports.filterMap (importedResource? b.roots b.roots.directory (b.rootPath root))

/-- What a root attaches. -/
def rootAttachments (root : Root) : List Resource :=
  (b.readRoot root).1.attachments.filterMap (attachedResource? b.roots b.roots.directory (b.rootPath root))

section Reading

variable (disk : σ)

/-- The text of an import that can be read. -/
def textOf? (r : Resource) : Option String :=
  if r.isImport then (b.files.readText r.path disk).toOption else none

/-- What the imports of an import lead to. -/
def importsOf (r : Resource) : List Resource := ((b.textOf? disk r).map (b.importedBy r.path)).getD []

/-- What an import attaches. -/
def attachmentsOf (r : Resource) : List Resource := ((b.textOf? disk r).map (b.attachedBy r.path)).getD []

/-- Whether what a resource needs of its file is there: an import can be read, an attachment is a file. -/
def isThere (r : Resource) : Bool :=
  if r.isImport then (b.textOf? disk r).isSome else b.files.isFile r.path disk

/-- Whether a resource is an import that can be read, but not in any dialect. -/
def lacksDialect (r : Resource) : Bool := (b.textOf? disk r).isSome && (b.config.dialect? r.path).isNone

/-- What is amiss with a resource: it is not there, or cells of it are no scripts. -/
def diagnosticsOf (r : Resource) : List Diagnostic :=
  if r.isImport then
    match b.files.readText r.path disk with
    | .ok text => (b.readFile r.path text).2
    | .error reason => [.unresolved r reason.message]
  else if b.files.isFile r.path disk then []
  else [.unresolved r "attachment not found"]

end Reading

/-! ## Imports and attachments -/

theorem kind_of_resource? {roots : Roots} {origin : Path} {referent : Option Path} {kind : ResourceKind}
    {written reference : String} {r : Resource} (h : resource? roots origin referent kind written reference = some r) :
    r.kind = kind := by
  unfold resource? at h
  split at h
  · cases h; rfl
  · cases h

theorem isImport_of_importedResource? {roots : Roots} {origin : Path} {referent : Option Path} {source : String}
    {r : Resource} (h : importedResource? roots origin referent source = some r) : r.isImport = true := by
  rw [Resource.isImport, kind_of_resource? h]
  rfl

theorem isImport_of_attachedResource? {roots : Roots} {origin : Path} {referent : Option Path} {name : String}
    {r : Resource} (h : attachedResource? roots origin referent name = some r) : r.isImport = false := by
  obtain ⟨reference, -, hr⟩ := Option.bind_eq_some_iff.mp h
  rw [Resource.isImport, kind_of_resource? hr]
  rfl

section Kinds

variable {b} {root : Root} {disk : σ} {p : Path} {text : String} {r m : Resource}

theorem isImport_of_mem_importedBy (h : r ∈ b.importedBy p text) : r.isImport = true := by
  obtain ⟨source, -, hsource⟩ := List.mem_filterMap.mp h
  exact isImport_of_importedResource? hsource

theorem isImport_of_mem_attachedBy (h : r ∈ b.attachedBy p text) : r.isImport = false := by
  unfold attachedBy at h
  split at h
  · obtain ⟨name, -, hname⟩ := List.mem_filterMap.mp h
    exact isImport_of_attachedResource? hname
  · cases h

theorem isImport_of_mem_rootImports (h : r ∈ b.rootImports root) : r.isImport = true := by
  obtain ⟨source, -, hsource⟩ := List.mem_filterMap.mp h
  exact isImport_of_importedResource? hsource

theorem isImport_of_mem_rootAttachments (h : r ∈ b.rootAttachments root) : r.isImport = false := by
  obtain ⟨name, -, hname⟩ := List.mem_filterMap.mp h
  exact isImport_of_attachedResource? hname

/-- What can be read is an import. -/
theorem isImport_of_textOf? (h : b.textOf? disk r = some text) : r.isImport = true := by
  unfold textOf? at h
  split at h
  · assumption
  · cases h

theorem mem_importsOf :
    r ∈ b.importsOf disk m ↔ ∃ text, b.textOf? disk m = some text ∧ r ∈ b.importedBy m.path text := by
  unfold importsOf
  cases b.textOf? disk m <;> simp

theorem mem_attachmentsOf :
    r ∈ b.attachmentsOf disk m ↔ ∃ text, b.textOf? disk m = some text ∧ r ∈ b.attachedBy m.path text := by
  unfold attachmentsOf
  cases b.textOf? disk m <;> simp

theorem isImport_of_mem_importsOf (h : r ∈ b.importsOf disk m) : r.isImport = true := by
  obtain ⟨text, -, hr⟩ := mem_importsOf.mp h
  exact isImport_of_mem_importedBy hr

theorem isImport_of_mem_attachmentsOf (h : r ∈ b.attachmentsOf disk m) : r.isImport = false := by
  obtain ⟨text, -, hr⟩ := mem_attachmentsOf.mp h
  exact isImport_of_mem_attachedBy hr

end Kinds

/-! ## Rounds -/

section Rounds

variable (root : Root) (disk : σ) (skipped : List Path)

/-- The references that are found in some rounds, where files at the skipped paths are not read. -/
def discovered : Nat → List Resource
  | 0 => b.rootImports root ++ b.rootAttachments root
  | n + 1 =>
    b.rootImports root ++ b.rootAttachments root ++ (firstSeen skipped (discovered n)).flatMap (b.importsOf disk)

/-- Whether another round finds nothing more. -/
def Exhausted (n : Nat) : Prop := b.discovered root disk skipped (n + 1) = b.discovered root disk skipped n

/-- The references that are found in some rounds, and then the attachments of the script modules among them. -/
def stream (n : Nat) : List Resource :=
  b.discovered root disk skipped n ++
    (firstSeen skipped (b.discovered root disk skipped n)).flatMap (b.attachmentsOf disk)

/-- The first reference to each path apart from that of the root. -/
def kept (n : Nat) : List Resource := firstSeen (b.rootPath root).toList (b.stream root disk skipped n)

/-- The graph of what is there: the resources in order, without the imported documents, and what is amiss. -/
def reading (n : Nat) : Graph where
  buildId := b.id
  rootDirectory := b.roots.directory
  resources := (b.kept root disk skipped n).filter fun r =>
    b.isThere disk r && !(r.isImport && b.config.isDocument r.path)
  diagnostics := (b.readRoot root).2 ++ (b.kept root disk skipped n).flatMap (b.diagnosticsOf disk)
  compiledFiles := []

variable {root disk skipped}

theorem discovered_isPrefix_succ (n : Nat) :
    b.discovered root disk skipped n <+: b.discovered root disk skipped (n + 1) := by
  induction n with
  | zero => exact List.prefix_append _ _
  | succ n ih => exact (List.prefix_append_right_inj _).mpr (flatMap_firstSeen_isPrefix ih _)

/-- A later round finds all that an earlier one does, in the same order. -/
theorem discovered_isPrefix {m n : Nat} (h : m ≤ n) :
    b.discovered root disk skipped m <+: b.discovered root disk skipped n := by
  induction n, h using Nat.le_induction with
  | base => exact List.prefix_refl _
  | succ n _ ih => exact ih.trans (b.discovered_isPrefix_succ n)

/-- After a round that finds nothing more no round does. -/
theorem discovered_eq_of_exhausted {m n : Nat} (h : b.Exhausted root disk skipped m) (hn : m ≤ n) :
    b.discovered root disk skipped n = b.discovered root disk skipped m := by
  induction n, hn using Nat.le_induction with
  | base => rfl
  | succ n _ ih =>
    calc b.discovered root disk skipped (n + 1)
        = b.discovered root disk skipped (m + 1) := by rw [discovered, ih, discovered]
      _ = b.discovered root disk skipped m := h

/-- No round finds more than one that is the last. -/
theorem discovered_isPrefix_of_exhausted {m : Nat} (h : b.Exhausted root disk skipped m) (n : Nat) :
    b.discovered root disk skipped n <+: b.discovered root disk skipped m := by
  rcases Nat.le_total n m with hn | hn
  · exact b.discovered_isPrefix hn
  · exact ⟨[], by rw [List.append_nil, b.discovered_eq_of_exhausted h hn]⟩

/-- Two rounds that are the last ones found the same. -/
theorem discovered_eq_discovered {m n : Nat} (hm : b.Exhausted root disk skipped m)
    (hn : b.Exhausted root disk skipped n) :
    b.discovered root disk skipped m = b.discovered root disk skipped n :=
  (b.discovered_isPrefix_of_exhausted hn m).eq_of_length_le
    (b.discovered_isPrefix_of_exhausted hm n).length_le

theorem reading_eq_reading {m n : Nat} (hm : b.Exhausted root disk skipped m)
    (hn : b.Exhausted root disk skipped n) :
    b.reading root disk skipped m = b.reading root disk skipped n := by
  unfold reading kept stream
  rw [b.discovered_eq_discovered hm hn]

end Rounds

end CellGraph.Build
