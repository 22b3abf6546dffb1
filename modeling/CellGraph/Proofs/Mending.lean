import CellGraph.Proofs.Cells
import CellGraph.Proofs.Dependence

/-!
# Sources that cannot be read

A source that is no script contributes nothing but a diagnostic. So a build comes to the same from a root without such
cells, on a disk where every script or module that cannot be read is empty and every document has only the cells that
can be read (`Mends`); it only says less of what is amiss (`Builder.build_mended`).
-/

namespace CellGraph

variable {σ : Type}

/-! ## Empty sources -/

namespace Script

theorem scriptReferences?_empty (attachmentFunction : Option String) :
    scriptReferences? attachmentFunction "" = some .empty := by
  have hparse : parse? "" = some (.mk .program []) := rfl
  cases attachmentFunction <;>
    simp [scriptReferences?, hparse, Node.collect, Node.collectAll, Node.ownReferences, Node.moduleSource?,
      Node.attachment?, References.empty] <;> rfl

/-- An empty source can be read and refers to nothing, in every dialect. -/
theorem references?_empty (dialect : Dialect) (attachmentFunction : String) :
    references? dialect attachmentFunction "" = some .empty := by
  have hcell : cellReferences? attachmentFunction "" = some .empty := by
    have hnormal : normalize "" = "" := by decide +kernel
    unfold cellReferences?
    simp only [hnormal, scriptReferences?_empty]
  cases dialect with
  | plainModule => exact scriptReferences?_empty none
  | script => exact hcell
  | document => exact hcell

end Script

namespace Build

variable {b : Build σ} {root : Root} {disk disk' : σ} {p : Path} {text text' : String} {r : Resource}

/-! ## Cells -/

/-- Whether a source can be read in a dialect. -/
def parses (b : Build σ) (dialect : Dialect) (source : String) : Bool :=
  (Script.references? dialect b.config.attachmentFunction source).isSome

section Cells

variable (b : Build σ) (dialect : Dialect) (referent : Option Path)

/-- Without the cells that cannot be read, the same is referred to and nothing is amiss. -/
theorem readCells_filter_parses (cells : List String) :
    readCells dialect b.config.attachmentFunction referent (cells.filter (b.parses dialect)) =
      ((readCells dialect b.config.attachmentFunction referent cells).1, []) := by
  unfold parses
  induction cells with
  | nil => rfl
  | cons cell cells ih =>
    cases hcell : Script.references? dialect b.config.attachmentFunction cell with
    | none => simp [readCells, hcell, ih]
    | some own => simp [readCells, hcell, ih]

/-- An empty cell in the place of one that cannot be read refers to the same, and nothing is amiss. -/
theorem readCells_ite_parses (cell : String) :
    readCells dialect b.config.attachmentFunction referent [if b.parses dialect cell then cell else ""] =
      ((readCells dialect b.config.attachmentFunction referent [cell]).1, []) := by
  unfold parses
  cases hcell : Script.references? dialect b.config.attachmentFunction cell with
  | none =>
    simp [readCells, hcell, Script.references?_empty]
    rfl
  | some own => simp [readCells, hcell]

/-- Of every cell that cannot be read it is said that it cannot be. -/
theorem diagnostics_readCells_parses (cells : List String) :
    (readCells dialect b.config.attachmentFunction referent cells).2 =
      (cells.filter fun cell => !b.parses dialect cell).map fun _ => .unparsable referent := by
  simp only [diagnostics_readCells, parses, Option.not_isSome]

end Cells

/-! ## Files -/

/-- The cells of a file that cannot be read. -/
def unparsed (b : Build σ) (p : Path) (text : String) : List String :=
  match b.config.dialect? p with
  | none => []
  | some dialect =>
    let (cellDialect, cells) := b.fileCells dialect p text
    cells.filter fun cell => !b.parses cellDialect cell

/-- Whether a text is what another one at a path is without what cannot be read: a script or module that cannot be read
is empty, and a document has only the other script cells. -/
def Mends (b : Build σ) (p : Path) (text text' : String) : Prop :=
  match b.config.dialect? p with
  | none => True
  | some .document =>
    Document.scriptCells b.config p text' = (Document.scriptCells b.config p text).filter (b.parses .script)
  | some dialect => text' = if b.parses dialect text then text else ""

instance (b : Build σ) (p : Path) (text text' : String) : Decidable (b.Mends p text text') := by
  unfold Mends
  split <;> infer_instance

/-- A mended text refers to the same, and nothing is amiss with it. -/
theorem Mends.readFile_eq (h : b.Mends p text text') : b.readFile p text' = ((b.readFile p text).1, []) := by
  unfold Mends at h
  cases hdialect : b.config.dialect? p with
  | none =>
    unfold readFile
    rw [hdialect]
  | some dialect =>
    rw [hdialect] at h
    rw [b.readFile_of_dialect hdialect, b.readFile_of_dialect hdialect]
    cases dialect with
    | document =>
      simp only [fileCells, h, b.readCells_filter_parses]
    | script =>
      simp only [fileCells, h, b.readCells_ite_parses]
    | plainModule =>
      simp only [fileCells, h, b.readCells_ite_parses]

/-- Of a file it is said, of every cell that cannot be read, that it cannot be. -/
theorem diagnostics_readFile (b : Build σ) (p : Path) (text : String) :
    (b.readFile p text).2 = (b.unparsed p text).map fun _ => .unparsable (some p) := by
  unfold readFile unparsed
  cases b.config.dialect? p with
  | none => rfl
  | some dialect => exact b.diagnostics_readCells_parses ..

/-! ## Disks -/

/-- Whether a path leads to a mended text on another disk, or reading it fails on both alike. -/
def MendsAt (b : Build σ) (disk disk' : σ) (p : Path) : Prop :=
  match b.files.readText p disk, b.files.readText p disk' with
  | .ok text, .ok text' => b.Mends p text text'
  | .error e, .error e' => e' = e
  | _, _ => False

instance (b : Build σ) (disk disk' : σ) (p : Path) : Decidable (b.MendsAt disk disk' p) := by
  unfold MendsAt
  split <;> infer_instance

theorem mendsAt_cases (h : b.MendsAt disk disk' p) :
    (∃ e, b.files.readText p disk = .error e ∧ b.files.readText p disk' = .error e) ∨
      ∃ text text', b.files.readText p disk = .ok text ∧ b.files.readText p disk' = .ok text' ∧
        b.Mends p text text' := by
  unfold MendsAt at h
  split at h
  · rename_i text text' hread hread'
    exact Or.inr ⟨text, text', hread, hread', h⟩
  · rename_i e e' hread hread'
    exact Or.inl ⟨e, hread, h ▸ hread'⟩
  · exact h.elim

section Disks

variable (hfile : b.files.isFile r.path disk' = b.files.isFile r.path disk)
  (h : r.isImport = true → b.MendsAt disk disk' r.path)
include hfile h

/-- A mended import leads on alike. -/
theorem LeadsAlike.of_mendsAt : b.LeadsAlike disk disk' r := by
  cases himport : r.isImport with
  | false => exact .of_textOf? (by simp [textOf?, himport]) hfile
  | true =>
    rcases mendsAt_cases (h himport) with ⟨e, hread, hread'⟩ | ⟨text, text', hread, hread', htext⟩
    · exact .of_textOf? (by simp [textOf?, himport, hread, hread']) hfile
    · have htextOf : b.textOf? disk r = some text := by simp [textOf?, himport, hread, Except.toOption]
      have htextOf' : b.textOf? disk' r = some text' := by simp [textOf?, himport, hread', Except.toOption]
      exact {
        isThere := by simp [Build.isThere, himport, htextOf, htextOf']
        lacksDialect := by simp [Build.lacksDialect, htextOf, htextOf']
        imports := by simp [importsOf, importedBy, htextOf, htextOf', htext.readFile_eq]
        attachments := by simp [attachmentsOf, Build.attachedBy, htextOf, htextOf', htext.readFile_eq] }

/-- Of a mended import it is said only that it is not there. -/
theorem diagnosticsOf_of_mendsAt : b.diagnosticsOf disk' r =
    (b.diagnosticsOf disk r).filter fun d => d.kind == .unresolvedReference := by
  unfold diagnosticsOf
  cases himport : r.isImport with
  | false =>
    rw [hfile]
    cases b.files.isFile r.path disk <;> rfl
  | true =>
    rcases mendsAt_cases (h himport) with ⟨e, hread, hread'⟩ | ⟨text, text', hread, hread', htext⟩
    · rw [hread, hread']
      rfl
    · have hparse : (b.readFile r.path text).2.filter (fun d => d.kind == .unresolvedReference) = [] :=
        List.filter_eq_nil_iff.mpr fun d hd => by rw [kind_of_mem_readFile hd]; decide
      simp only [hread, hread', htext.readFile_eq, hparse, if_true]

end Disks

/-- What is said of an import that is there: of every cell of it that cannot be read, that it cannot be. -/
def parseFailuresOf (b : Build σ) (disk : σ) (r : Resource) : List Diagnostic :=
  (((b.textOf? disk r).map (b.unparsed r.path)).getD []).map fun _ => .unparsable (some r.path)

theorem filter_diagnosticsOf (b : Build σ) (disk : σ) (r : Resource) :
    (b.diagnosticsOf disk r).filter (fun d => d.kind == .parseFailure) = b.parseFailuresOf disk r := by
  unfold diagnosticsOf parseFailuresOf textOf?
  cases himport : r.isImport with
  | false => cases b.files.isFile r.path disk <;> rfl
  | true =>
    cases hread : b.files.readText r.path disk with
    | error e => rfl
    | ok text =>
      have hparse : (b.readFile r.path text).2.filter (fun d => d.kind == .parseFailure) = (b.readFile r.path text).2 :=
        List.filter_eq_self.mpr fun d hd => by rw [kind_of_mem_readFile hd]; decide
      simp only [if_true, hparse]
      rw [diagnostics_readFile]
      rfl

theorem parseFailuresOf_of_attached (h : r.isImport = false) : b.parseFailuresOf disk r = [] := by
  simp [parseFailuresOf, textOf?, h]

theorem parseFailuresOf_of_not_isThere (h : b.isThere disk r = false) : b.parseFailuresOf disk r = [] := by
  cases himport : r.isImport with
  | false => exact parseFailuresOf_of_attached himport
  | true =>
    have htext : b.textOf? disk r = none := by simpa [isThere, himport] using h
    rw [parseFailuresOf, htext]
    rfl

/-- Nothing is said of what is not there. -/
theorem flatMap_parseFailuresOf_filter (b : Build σ) (disk : σ) (rs : List Resource) :
    (rs.filter (b.isThere disk)).flatMap (b.parseFailuresOf disk) = rs.flatMap (b.parseFailuresOf disk) := by
  induction rs with
  | nil => rfl
  | cons r rs ih =>
    cases hthere : b.isThere disk r with
    | true => rw [List.filter_cons_of_pos hthere, List.flatMap_cons, List.flatMap_cons, ih]
    | false =>
      rw [List.filter_cons_of_neg (by simp [hthere]), List.flatMap_cons, parseFailuresOf_of_not_isThere hthere, ih,
        List.nil_append]

/-! ## Roots -/

/-- A root without the cells that cannot be read. -/
def mended (b : Build σ) (root : Root) : Root := { root with cells := root.cells.filter (b.parses root.dialect) }

theorem readRoot_mended (b : Build σ) (root : Root) : b.readRoot (b.mended root) = ((b.readRoot root).1, []) :=
  b.readCells_filter_parses ..

theorem StartsAlike.mended (b : Build σ) (root : Root) : b.StartsAlike root (b.mended root) where
  path := rfl
  imports := by
    unfold rootImports
    rw [readRoot_mended]
    rfl
  attachments := by
    unfold rootAttachments
    rw [readRoot_mended]
    rfl

theorem diagnostics_readRoot (b : Build σ) (root : Root) : (b.readRoot root).2 =
    (root.cells.filter fun cell => !b.parses root.dialect cell).map fun _ => .unparsable (b.rootPath root) :=
  b.diagnostics_readCells_parses ..

/-! ## Readings -/

/-- The same resources are read of mended files, and the same is said not to be there. -/
theorem reading_of_mendsAt (hfile : ∀ p, b.files.isFile p disk' = b.files.isFile p disk) {skipped : List Path} {n : Nat}
    (hkept : b.kept (b.mended root) disk' skipped n = b.kept root disk skipped n)
    (h : ∀ r ∈ b.kept root disk skipped n, r.isImport = true → b.MendsAt disk disk' r.path) :
    (b.reading (b.mended root) disk' skipped n).resources = (b.reading root disk skipped n).resources ∧
      (b.reading (b.mended root) disk' skipped n).diagnostics = (b.reading root disk skipped n).unresolved := by
  have hthere : ∀ r ∈ b.kept root disk skipped n, b.isThere disk' r = b.isThere disk r := fun r hr =>
    (LeadsAlike.of_mendsAt (hfile r.path) (h r hr)).isThere
  have hroot : (b.readRoot root).2.filter (fun d => d.kind == .unresolvedReference) = [] :=
    List.filter_eq_nil_iff.mpr fun d hd => by rw [kind_of_mem_readCells _ _ _ _ hd]; decide
  unfold Graph.unresolved reading
  constructor
  · rw [hkept]
    exact List.filter_congr fun r hr => by rw [hthere r hr]
  · rw [hkept, readRoot_mended, List.flatMap_congr fun r hr => diagnosticsOf_of_mendsAt (hfile r.path) (h r hr),
      List.filter_append, hroot, List.filter_flatMap]

/-- What is said not to be readable are the cells of the root and of the kept imports that cannot be read. -/
theorem parseFailures_reading (b : Build σ) (root : Root) (disk : σ) (skipped : List Path) (n : Nat) :
    (b.reading root disk skipped n).diagnostics.filter (fun d => d.kind == .parseFailure) =
      ((root.cells.filter fun cell => !b.parses root.dialect cell).map fun _ => .unparsable (b.rootPath root)) ++
        (b.kept root disk skipped n).flatMap (b.parseFailuresOf disk) := by
  unfold reading
  rw [List.filter_append, ← diagnostics_readRoot, List.filter_eq_self.mpr fun d hd => by
    rw [kind_of_mem_readCells _ _ _ _ hd]; decide, List.filter_flatMap]
  simp only [filter_diagnosticsOf]

end Build

namespace Builder

variable {b : Builder σ} {root : Root} {s s' : BuildState σ} {fuel : Nat}

/-- Without a compiler, a build comes to the same if what cannot be read is left out: the cells of its root, scripts and
modules, and the cells of documents. It fails or runs out of fuel alike, it finds the same resources, and the same is
said not to be there; what else is said is, of every such cell or file that is read, that it cannot be. -/
theorem build_mended (hb : b.compiler = none) (hfile : ∀ p, b.files.isFile p s'.disk = b.files.isFile p s.disk)
    (hmends : ∀ r ∈ b.visits fuel root s, r.isImport = true →
      (b.buildOf root s.builds).MendsAt s.disk s'.disk r.path) :
    let build := b.buildOf root s.builds
    (∀ g t u, b.build fuel root s = some (.ok g, t) → b.traversal? fuel root s = some u →
      (∃ g' t', b.build fuel (build.mended root) s' = some (.ok g', t') ∧ g'.rootDirectory = g.rootDirectory ∧
        g'.resources = g.resources ∧ g'.diagnostics = g.unresolved) ∧
      g.diagnostics.filter (fun d => d.kind == .parseFailure) =
        ((root.cells.filter fun cell => !build.parses root.dialect cell).map fun _ =>
          .unparsable (build.rootPath root)) ++
          u.accepted.flatMap (build.parseFailuresOf s.disk)) ∧
    (∀ e t, b.build fuel root s = some (.error e, t) →
      ∃ t', b.build fuel (build.mended root) s' = some (.error e, t')) ∧
    (b.build fuel root s = none → b.build fuel (build.mended root) s' = none) := by
  intro build
  have hdirectory : (build.mended root).directory = root.directory := rfl
  have hroot : build.StartsAlike root (build.mended root) := .mended build root
  have hvisits : ∀ r ∈ b.visits fuel root s, build.LeadsAlike s.disk s'.disk r := fun r hr =>
    .of_mendsAt (hfile r.path) (hmends r hr)
  refine ⟨fun g t u hbuild hu => ?_, fun e t hbuild => build_error_alike hb hdirectory hroot hvisits hbuild,
    fun hbuild => build_none_alike hb hdirectory hroot hvisits hbuild⟩
  obtain ⟨n, attached, t', hkept, hattached, hkept', rfl, hbuild'⟩ := build_ok_alike hb hdirectory hroot hvisits hbuild
  have hall : ∀ r ∈ build.kept root s.disk (build.rootPath root).toList n,
      r.isImport = true → build.MendsAt s.disk s'.disk r.path := fun r hr himport =>
    hmends r (Build.mem_visited_of_import hkept hattached hr himport) himport
  constructor
  · obtain ⟨hresources, hdiagnostics⟩ := Build.reading_of_mendsAt hfile (hkept'.trans hkept.symm) hall
    exact ⟨_, t', hbuild', rfl, hresources, hdiagnostics⟩
  · obtain ⟨attached', hattached', haccepted⟩ := exists_accepted_eq hb hu
    have hnothing : ∀ {rs : List Resource}, (∀ r ∈ rs, r.isImport = false) →
        rs.flatMap (build.parseFailuresOf s.disk) = [] := fun hrs =>
      List.flatMap_eq_nil_iff.mpr fun r hr => Build.parseFailuresOf_of_attached (hrs r hr)
    rw [Build.parseFailures_reading, hkept, haccepted, List.flatMap_append, List.flatMap_append,
      Build.flatMap_parseFailuresOf_filter, hnothing hattached, hnothing hattached']

end Builder

/-! ## What cannot be read and is left out -/

namespace LeftOut

/-- A document with two cells, one of which cannot be read. -/
def document : String := "```{ojs}\nimport './c.js'\n```\n```{ojs}\nimport './d.js' (\n```\n"

/-- The same document without that cell. -/
def shortened : String := "```{ojs}\nimport './c.js'\n```\n"

/-- A module that cannot be read, the document, and a module that it imports. -/
def disk : Disk := .ofTexts [(["a.js"], "import './b.js' ("), (["b.qmd"], document), (["c.js"], "")]

/-- The disk with an empty module and the shortened document. -/
def mended : Disk :=
  (disk.put ["a.js"] (.file [] false)).put ["b.qmd"] (.file (Text.encode shortened) false)

theorem isFile_mended (p : Path) : mended.isFile p = disk.isFile p := by
  have hmodule : disk.get? ["a.js"] = some (.file (Text.encode "import './b.js' (") false) := by decide +kernel
  have hdocument : (disk.put ["a.js"] (.file [] false)).get? ["b.qmd"] = some (.file (Text.encode document) false) := by
    decide +kernel
  exact (Disk.isFile_put hdocument _ p).trans (Disk.isFile_put hmodule _ p)

/-- Cells that import the module, the document and a missing file, and one that cannot be read. -/
def root : Root :=
  ⟨["import './a.js'", "import './e.js' (", "import './b.qmd'\nimport './gone.js'"], ⟨"/"⟩, .document, none⟩

def build : Build Disk := Builder.onDisk.buildOf root 0

theorem mendsAt_of_visits : ∀ r ∈ Builder.onDisk.visits 4 root ⟨disk, .empty, 0⟩, r.isImport = true →
    build.MendsAt disk mended r.path := by
  have hvisits : (Builder.onDisk.visits 4 root ⟨disk, .empty, 0⟩).map Resource.path =
      [⟨"/a.js"⟩, ⟨"/b.qmd"⟩, ⟨"/gone.js"⟩, ⟨"/c.js"⟩] := by decide +kernel
  have hmends : ∀ p ∈ [(⟨"/a.js"⟩ : Path), ⟨"/b.qmd"⟩, ⟨"/gone.js"⟩, ⟨"/c.js"⟩], build.MendsAt disk mended p := by
    decide +kernel
  exact fun r hr _ => hmends r.path (hvisits ▸ List.mem_map_of_mem hr)

/-- Without what cannot be read the build finds the same two modules, and says no more that a cell of the root, a module
and a cell of the document cannot be. -/
theorem build_leftOut : ∃ g t g' t',
    Builder.onDisk.build 4 root ⟨disk, .empty, 0⟩ = some (.ok g, t) ∧
    Builder.onDisk.build 4 (build.mended root) ⟨mended, .empty, 1⟩ = some (.ok g', t') ∧
    g.resources.map Resource.path = [⟨"/a.js"⟩, ⟨"/c.js"⟩] ∧ g'.resources = g.resources ∧
    g'.diagnostics = g.unresolved ∧ g.diagnostics.filter (fun d => d.kind == .parseFailure) =
      [.unparsable none, .unparsable (some ⟨"/a.js"⟩), .unparsable (some ⟨"/b.qmd"⟩)] := by
  obtain ⟨g, t, hbuild, hpaths⟩ := Outcome.exists_of_paths?
    (show (Builder.onDisk.build 4 root ⟨disk, .empty, 0⟩).paths? = some [⟨"/a.js"⟩, ⟨"/c.js"⟩] by decide +kernel)
  obtain ⟨u, -, -, -, hu, -, -⟩ := Builder.exists_traversal hbuild
  have hfailures : (Builder.onDisk.traversal? 4 root ⟨disk, .empty, 0⟩).map (fun u =>
      ((root.cells.filter fun cell => !build.parses root.dialect cell).map fun _ =>
        Diagnostic.unparsable (build.rootPath root)) ++ u.accepted.flatMap (build.parseFailuresOf disk)) =
      some [.unparsable none, .unparsable (some ⟨"/a.js"⟩), .unparsable (some ⟨"/b.qmd"⟩)] := by decide +kernel
  rw [hu, Option.map_some, Option.some.injEq] at hfailures
  obtain ⟨⟨g', t', hbuild', -, hresources, hdiagnostics⟩, hparse⟩ :=
    (@Builder.build_mended Disk Builder.onDisk root ⟨disk, .empty, 0⟩ ⟨mended, .empty, 1⟩ 4 rfl isFile_mended
      mendsAt_of_visits).1 g t u hbuild hu
  exact ⟨g, t, g', t', hbuild, hbuild', hpaths, hresources, hdiagnostics, hparse.trans hfailures⟩

end LeftOut

end CellGraph
