import CellGraph.Package.Plain
import CellGraph.Proofs.Reachability

/-!
# Attached files are kept

A file that is attached, by a cell of the root or by a script module that was read, is a resource of the graph if it is
there (`Builder.exists_resource_of_attached`). What else refers to it matters only if an import does so first: the file
is then read as a module, so a document is only gone through, what is no text is not there, and attaching the file does
not bring it back. Nor does it bring the file of the root into its own graph (`AttachedToo.lost_attachments`).
-/

namespace CellGraph

variable {σ : Type}

/-- What cells attach is what one of those that can be read attaches. -/
theorem mem_attachments_readCells {dialect : Dialect} {attachmentFunction name : String} {referent : Option Path}
    {cells : List String} : name ∈ (readCells dialect attachmentFunction referent cells).1.attachments ↔
      ∃ cell ∈ cells, ∃ references, Script.references? dialect attachmentFunction cell = some references ∧
        name ∈ references.attachments := by
  induction cells with
  | nil => simp [readCells, Script.References.empty]
  | cons cell cells ih =>
    rw [readCells]
    cases hcell : Script.references? dialect attachmentFunction cell with
    | none => simp [hcell, ih]
    | some own => simp [hcell, ih]

theorem toOption_eq_some_iff {ε α : Type} {e : Except ε α} {a : α} : e.toOption = some a ↔ e = .ok a := by
  cases e <;> simp [Except.toOption]

namespace Build

/-- Whether a source names the file at a path as an attachment. -/
def Attaches (b : Build σ) (dialect : Dialect) (source : String) (origin p : Path) : Prop :=
  ∃ references name reference target,
    Script.references? dialect b.config.attachmentFunction source = some references ∧ name ∈ references.attachments ∧
      attachmentReference? name = some reference ∧ b.roots.resolve reference origin = .ok target ∧ target.path = p

/-- Names are followed one after the other. -/
instance (b : Build σ) (dialect : Dialect) (source : String) (origin p : Path) :
    Decidable (b.Attaches dialect source origin p) :=
  decidable_of_iff
    ((Script.references? dialect b.config.attachmentFunction source).any fun references =>
      references.attachments.any fun name => (attachmentReference? name).any fun reference =>
        (b.roots.resolve reference origin).toOption.any fun target => target.path = p)
    (by simp [Attaches, Option.any_eq_true, toOption_eq_some_iff])

/-- Whether a cell of the root or a script module among some resources attaches the file at a path. -/
inductive Attached (b : Build σ) (root : Root) (disk : σ) (accepted : List Resource) (p : Path) : Prop
  | root {cell : String} (hcell : cell ∈ root.cells) (h : b.Attaches root.dialect cell b.roots.directory p)
  | module {m : Resource} {text : String} (hm : m ∈ accepted) (htext : b.textOf? disk m = some text)
      (hdialect : b.config.dialect? m.path = some .script) (h : b.Attaches .script text m.path.directory p)

/-- Whether the first reference to a path is an import of the root or of a module among some resources. -/
def ImportedFirst (b : Build σ) (root : Root) (disk : σ) (accepted : List Resource) (p : Path) : Prop :=
  ¬ b.AttachedFirst root p ∧ p.isPathOf (b.rootImports root ++ accepted.flatMap (b.importsOf disk)) = true

variable {b : Build σ} {root : Root} {disk : σ} {registry : Registry} {done : List Resource} {t : Traversal σ}
    {p : Path}

/-! ## References to attached files -/

/-- What one of some cells attaches is among the resources for all that they attach. -/
theorem Attaches.exists_mem {dialect : Dialect} {source : String} {origin : Path}
    (h : b.Attaches dialect source origin p) {cells : List String} (hsource : source ∈ cells) (referent : Option Path) :
    ∃ r ∈ (readCells dialect b.config.attachmentFunction referent cells).1.attachments.filterMap
      (attachedResource? b.roots origin referent), r.path = p := by
  obtain ⟨references, name, reference, target, hreferences, hmem, hname, htarget, rfl⟩ := h
  have hfound : name ∈ (readCells dialect b.config.attachmentFunction referent cells).1.attachments :=
    mem_attachments_readCells.mpr ⟨source, hsource, references, hreferences, hmem⟩
  obtain ⟨r, hr, hpath⟩ : ∃ r, attachedResource? b.roots origin referent name = some r ∧ r.path = target.path := by
    unfold attachedResource? resource?
    rw [hname, Option.bind_some, htarget]
    exact ⟨_, rfl, rfl⟩
  exact ⟨r, List.mem_filterMap.mpr ⟨name, hfound, hr⟩, hpath⟩

/-- What cells of the root attach is found. -/
theorem exists_mem_rootAttachments {cell : String} (hcell : cell ∈ root.cells)
    (h : b.Attaches root.dialect cell b.roots.directory p) : ∃ r ∈ b.rootAttachments root, r.path = p :=
  h.exists_mem hcell (b.rootPath root)

/-- What script modules attach is found. -/
theorem exists_mem_attachmentsOf {m : Resource} {text : String} (htext : b.textOf? disk m = some text)
    (hdialect : b.config.dialect? m.path = some .script) (h : b.Attaches .script text m.path.directory p) :
    ∃ r ∈ b.attachmentsOf disk m, r.path = p := by
  obtain ⟨r, hr, hpath⟩ := h.exists_mem (List.mem_singleton_self text) (some m.path)
  have hcells : b.fileCells .script m.path text = (.script, [text]) := rfl
  refine ⟨r, mem_attachmentsOf.mpr ⟨text, htext, ?_⟩, hpath⟩
  unfold attachedBy
  rw [if_pos hdialect, b.readFile_of_dialect hdialect, hcells]
  dsimp only
  exact hr

/-- The modules that are accepted in the end have been visited. -/
theorem Progress.mem_done (h : Progress b root disk registry done t) {m : Resource}
    (hm : m ∈ (b.settleAttachments t).accepted) (himport : m.isImport = true) : m ∈ done := by
  obtain ⟨rs, hrs, hsettle⟩ := b.exists_settleAttachments t
  rw [hsettle, h.accepted] at hm
  rcases List.mem_append.mp hm with hm | hm
  · exact (List.mem_filter.mp hm).1
  · rw [hrs m (List.mem_filter.mp hm).1] at himport
    cases himport

/-- What is attached is found, or attached by what has been visited. -/
theorem Progress.exists_of_attached (h : Progress b root disk registry done t)
    (hp : b.Attached root disk (b.settleAttachments t).accepted p) :
    ∃ r ∈ b.found root disk done ++ done.flatMap (b.attachmentsOf disk), r.path = p := by
  cases hp with
  | root hcell hattaches =>
    obtain ⟨r, hr, hpath⟩ := exists_mem_rootAttachments hcell hattaches
    exact ⟨r, List.mem_append_left _ (List.mem_append_left _ (List.mem_append_right _ hr)), hpath⟩
  | module hm htext hdialect hattaches =>
    obtain ⟨r, hr, hpath⟩ := exists_mem_attachmentsOf htext hdialect hattaches
    have hdone := h.mem_done hm (isImport_of_textOf? htext)
    exact ⟨r, List.mem_append_right _ (List.mem_flatMap.mpr ⟨_, hdone, hr⟩), hpath⟩

/-! ## What is kept of them -/

/-- All that is attached has a normal path, as all that is found has. -/
theorem exists_normalize_of_mem_stream {r : Resource}
    (h : r ∈ b.found root disk done ++ done.flatMap (b.attachmentsOf disk)) : ∃ p : Path, r.path = p.normalize := by
  rcases List.mem_append.mp h with h | h
  · exact exists_normalize_of_mem_found h
  · obtain ⟨m, -, hm⟩ := List.mem_flatMap.mp h
    obtain ⟨text, -, hm⟩ := mem_attachmentsOf.mp hm
    unfold attachedBy at hm
    split at hm
    · obtain ⟨name, -, hname⟩ := List.mem_filterMap.mp hm
      exact exists_normalize_of_attachedResource? hname
    · cases hm

/-- When nothing waits, every path that was found or attached is that of a resource which is kept. -/
theorem Progress.exists_mem_kept (h : Progress b root disk registry done t) (ht : t.pending = []) {r : Resource}
    (hr : r ∈ b.found root disk done ++ done.flatMap (b.attachmentsOf disk))
    (hroot : r.path.isAmong (b.rootPath root).toList = false) :
    ∃ x ∈ b.kept root disk (b.rootPath root).toList done.length, x.path = r.path := by
  have hkept : b.kept root disk (b.rootPath root).toList done.length =
      firstSeen (b.rootPath root).toList (b.found root disk done ++ done.flatMap (b.attachmentsOf disk)) := by
    unfold kept stream
    rw [h.discovered_eq_found ht, h.firstSeen_found ht]
  rw [hkept]
  obtain ⟨x, hx, hsame⟩ := exists_mem_firstSeen hr hroot
  have hpath : r.path = x.path := by
    apply eq_of_same_of_normalize _ _ hsame
    · exact exists_normalize_of_mem_stream hr
    · exact exists_normalize_of_mem_stream (mem_of_mem_firstSeen hx)
  exact ⟨x, hx, hpath.symm⟩

/-- The imports that are kept are those whose first reference is an import. -/
theorem Progress.importedFirst_of_mem_kept (h : Progress b root disk registry done t) (ht : t.pending = [])
    {x : Resource} (hx : x ∈ b.kept root disk (b.rootPath root).toList done.length) (himport : x.isImport = true) :
    b.ImportedFirst root disk (b.settleAttachments t).accepted x.path := by
  rw [h.kept_eq ht] at hx
  rcases List.mem_append.mp hx with hx | hx
  · rw [← h.firstSeen_found ht] at hx
    have hfound : x ∈ b.found root disk done := mem_of_mem_firstSeen hx
    have hfirst : ¬ b.AttachedFirst root x.path := (isImport_iff_of_mem_firstSeen hx).mp himport
    refine ⟨hfirst, isPathOf_iff.mpr ⟨x, ?_, Path.same_refl _⟩⟩
    unfold found at hfound
    rcases List.mem_append.mp hfound with hfound | hfound
    · rcases List.mem_append.mp hfound with hfound | hfound
      · exact List.mem_append_left _ hfound
      · rw [isImport_of_mem_rootAttachments hfound] at himport
        cases himport
    · obtain ⟨m, hm, himported⟩ := List.mem_flatMap.mp hfound
      obtain ⟨text, htext, -⟩ := mem_importsOf.mp himported
      -- the module that imports it can be read, so it is accepted
      have hthere : b.isThere disk m = true := by simp [isThere, isImport_of_textOf? htext, htext]
      have haccepted : m ∈ (b.settleAttachments t).accepted := h.mem_accepted_settled hm hthere
      exact List.mem_append_right _ (List.mem_flatMap.mpr ⟨m, haccepted, himported⟩)
  · obtain ⟨m, -, hm⟩ := List.mem_flatMap.mp (mem_of_mem_firstSeen hx)
    rw [isImport_of_mem_attachmentsOf hm] at himport
    cases himport

/-- A resource that is kept is one of the graph if its file is there, and if, for an import, it can be read and is no
document. -/
theorem mem_resources_reading {n : Nat} {x : Resource} (hx : x ∈ b.kept root disk (b.rootPath root).toList n)
    (hfile : b.files.isFile x.path disk = true)
    (himported : x.isImport = true →
      (b.files.readText x.path disk).isOk = true ∧ b.config.isDocument x.path = false) :
    x ∈ (b.reading root disk (b.rootPath root).toList n).resources := by
  refine List.mem_filter.mpr ⟨hx, ?_⟩
  cases himport : x.isImport with
  | false => simp [isThere, himport, hfile]
  | true =>
    obtain ⟨hread, hdocument⟩ := himported himport
    have hthere : b.isThere disk x = true := by
      apply isThere_of_isOk hread
      intro hnot
      rw [himport] at hnot
      cases hnot
    simp [hthere, hdocument]

end Build

namespace Builder

variable {b : Builder σ} {root : Root} {s s' : BuildState σ} {fuel : Nat} {g : Graph}

/-- A file that is attached and there is a resource of the graph, and among the files to be copied. It is not the file
of the root, and if its first reference is an import, it can be read and is no document. -/
theorem exists_resource_of_attached (hb : b.compiler = none) (h : b.build fuel root s = some (.ok g, s')) :
    ∃ t, b.traversal? fuel root s = some t ∧ g = (b.buildOf root s.builds).graph t ∧
      ∀ p, (b.buildOf root s.builds).Attached root s.disk t.accepted p → b.files.isFile p s.disk = true →
        p.isAmong ((b.buildOf root s.builds).rootPath root).toList = false →
        ((b.buildOf root s.builds).ImportedFirst root s.disk t.accepted p →
          (b.files.readText p s.disk).isOk = true ∧ b.config.isDocument p = false) →
        ∃ r ∈ g.resources, r.path = p ∧ r.filename ∈ Package.plain g := by
  obtain ⟨t, u, hrun, rfl, ht, rfl, -⟩ := exists_traversal h
  have hends := (Build.Progress.seed (b.buildOf root s.builds) root s.disk s.registry).run hb fuel
  rw [hrun] at hends
  obtain ⟨done, hprogress, hpending⟩ := hends
  refine ⟨_, ht, rfl, ?_⟩
  intro p hattached hfile hroot himported
  obtain ⟨r, hr, rfl⟩ := hprogress.exists_of_attached hattached
  obtain ⟨x, hx, hpath⟩ := hprogress.exists_mem_kept hpending hr hroot
  rw [← hpath] at hfile himported
  have hresource : x ∈ ((b.buildOf root s.builds).graph ((b.buildOf root s.builds).settleAttachments u)).resources := by
    rw [hprogress.graph_eq hpending]
    apply Build.mem_resources_reading hx hfile
    intro himport
    exact himported (hprogress.importedFirst_of_mem_kept hpending hx himport)
  refine ⟨x, hresource, hpath, ?_⟩
  apply List.mem_eraseDups.mpr
  exact List.mem_map_of_mem hresource

end Builder

/-! ## Files that are attached and imported -/

namespace AttachedToo

/-- The document of the root and two more of them, a module that imports one, and a module that is no text. -/
def disk : Disk :=
  (Disk.ofTexts [(["d.md"], ""), (["a.md"], ""), (["b.md"], ""), (["m.js"], "import './b.md'")]).put ["x.js"]
    (.file [0xff] false)

/-- Cells that import one of the documents and both modules, and attach all of the files. -/
def root : Root where
  cells := ["import './m.js'", "import './a.md'", "import './x.js'", "FileAttachment('d.md')", "FileAttachment('a.md')",
    "FileAttachment('x.js')", "FileAttachment('b.md')", "FileAttachment('m.js')"]
  directory := ⟨"/"⟩
  dialect := .script
  path := some ⟨"/d.md"⟩

/-- All that is left is the module that can be read, and the document that it imports. -/
theorem exists_build : ∃ g s', Builder.onDisk.build 5 root ⟨disk, .empty, 0⟩ = some (.ok g, s') ∧
    g.resources.map Resource.path = [⟨"/m.js"⟩, ⟨"/b.md"⟩] :=
  Outcome.exists_of_paths? (by decide +kernel)

/-- The root attaches all of the files. -/
theorem attaches : ∀ p ∈ [(⟨"/d.md"⟩ : Path), ⟨"/a.md"⟩, ⟨"/x.js"⟩, ⟨"/b.md"⟩, ⟨"/m.js"⟩], ∃ cell ∈ root.cells,
    (Builder.onDisk.buildOf root 0).Attaches root.dialect cell (Builder.onDisk.buildOf root 0).roots.directory p := by
  decide +kernel

/-- A document that the root attaches before a module imports it is kept, and a module that it imports as well. -/
theorem exists_resource_of_attachedFirst : ∃ g s', Builder.onDisk.build 5 root ⟨disk, .empty, 0⟩ = some (.ok g, s') ∧
    (∃ r ∈ g.resources, r.path = ⟨"/b.md"⟩ ∧ r.filename ∈ Package.plain g) ∧
    ∃ r ∈ g.resources, r.path = ⟨"/m.js"⟩ ∧ r.filename ∈ Package.plain g := by
  obtain ⟨g, s', hbuild, -⟩ := exists_build
  obtain ⟨t, -, -, hattached⟩ := Builder.exists_resource_of_attached rfl hbuild
  refine ⟨g, s', hbuild, ?_, ?_⟩
  · obtain ⟨cell, hcell, hattaches⟩ := attaches ⟨"/b.md"⟩ (by decide)
    obtain ⟨r, hr, hpath⟩ := Build.exists_mem_rootAttachments hcell hattaches
    have hfirst : (Builder.onDisk.buildOf root 0).AttachedFirst root ⟨"/b.md"⟩ :=
      ⟨isPathOf_iff.mpr ⟨r, hr, hpath ▸ Path.same_refl _⟩, by decide +kernel⟩
    apply hattached ⟨"/b.md"⟩ (.root hcell hattaches) (by decide +kernel) (by decide +kernel)
    intro himported
    exact absurd hfirst himported.1
  · obtain ⟨cell, hcell, hattaches⟩ := attaches ⟨"/m.js"⟩ (by decide)
    apply hattached ⟨"/m.js"⟩ (.root hcell hattaches) (by decide +kernel) (by decide +kernel)
    intro _
    constructor
    · decide +kernel
    · decide +kernel

/-- The file of the root, a document that it imports as well and a module that is no text are attached and there, but
they are no resources. -/
theorem lost_attachments : ∃ g s' t, Builder.onDisk.build 5 root ⟨disk, .empty, 0⟩ = some (.ok g, s') ∧
    Builder.onDisk.traversal? 5 root ⟨disk, .empty, 0⟩ = some t ∧
    ∀ p ∈ [(⟨"/d.md"⟩ : Path), ⟨"/a.md"⟩, ⟨"/x.js"⟩],
      (Builder.onDisk.buildOf root 0).Attached root disk t.accepted p ∧ Disk.fileSystem.isFile p disk = true ∧
        p ∉ g.resources.map Resource.path := by
  obtain ⟨g, s', hbuild, hpaths⟩ := exists_build
  obtain ⟨t, -, -, -, ht, -⟩ := Builder.exists_traversal hbuild
  have hfiles : ∀ p ∈ [(⟨"/d.md"⟩ : Path), ⟨"/a.md"⟩, ⟨"/x.js"⟩],
      p ∈ [(⟨"/d.md"⟩ : Path), ⟨"/a.md"⟩, ⟨"/x.js"⟩, ⟨"/b.md"⟩, ⟨"/m.js"⟩] ∧ Disk.fileSystem.isFile p disk = true ∧
        p ∉ [(⟨"/m.js"⟩ : Path), ⟨"/b.md"⟩] := by decide +kernel
  refine ⟨g, s', t, hbuild, ht, ?_⟩
  intro p hp
  obtain ⟨hmem, hfile, hlost⟩ := hfiles p hp
  obtain ⟨cell, hcell, hattaches⟩ := attaches p hmem
  rw [hpaths]
  exact ⟨.root hcell hattaches, hfile, hlost⟩

end AttachedToo

end CellGraph
