import CellGraph.Proofs.Spellings

/-!
# What a graph leaves out

Every module that a build reads is read in a dialect (`Build.hasDialect_of_run`), that of its extension. What the graph
leaves out in the end are the imports with the extension of a document. That is all that was read as a document, since
this dialect comes last, and nothing else leads back to the same path (`Build.isPathOf_resources`). An extension that
stands for documents and for modules as well makes a module of a file, and a document of it in the end: it is followed
as a module and left out (`Builder.left_out_of_build`, `ModuleAndDocument.not_kept`).
-/

namespace CellGraph

variable {σ : Type}

/-- What is read as a document has the extension of one. -/
theorem Configuration.isDocument_of_dialect? {config : Configuration} {p : Path}
    (h : config.dialect? p = some .document) : config.isDocument p = true := by
  unfold dialect? at h
  split at h
  · cases h
  · split at h
    · cases h
    · split at h
      · assumption
      · cases h

namespace Build

variable {b : Build σ} {root : Root} {r : Resource} {t u : Traversal σ}

/-! ## Dialects of what is read -/

/-- Whether a module was read in a dialect. -/
def HasDialect (b : Build σ) (x : Read) : Prop := ∃ dialect, b.config.dialect? x.resource.path = some dialect

/-- A visit that reads a module without a dialect fails the build. -/
theorem hasDialect_of_step (h : b.step r t = (none, u)) : ∀ x ∈ b.readOf r t, b.HasDialect x := by
  intro x hx
  unfold HasDialect
  rw [(of_mem_readOf hx).1]
  unfold readOf at hx
  split at hx
  · cases hx
  · rename_i hpassed
    rw [Bool.not_eq_true, Bool.or_eq_false_iff] at hpassed
    obtain ⟨hpath, hkind⟩ := hpassed
    rw [step_of_import hpath (by simpa using hkind), visitImport] at h
    split at hx
    · rename_i text siblings hread
      have hobtained : b.obtainSource r (t.visit r.path) =
          (.source text siblings, (b.obtainSource r (t.visit r.path)).2) := Prod.ext hread rfl
      rw [hobtained] at h
      cases hdialect : b.config.dialect? r.path with
      | none => simp [hdialect] at h
      | some dialect => exact ⟨dialect, rfl⟩
    · cases hx

/-- All that a run reads that ends well is read in a dialect. -/
theorem hasDialect_of_run {disk : σ} {registry : Registry} {fuel : Nat}
    (h : b.run fuel (b.seed root disk registry) = some (none, t)) :
    ∀ x ∈ b.readsOf fuel (b.seed root disk registry), b.HasDialect x := by
  have hvisit : ∀ {reads : List Read} {r : Resource} {pending : List Resource} {t u : Traversal σ},
      (∀ x ∈ reads, b.HasDialect x) → t.pending = r :: pending → b.step r { t with pending } = (none, u) →
      ∀ x ∈ reads ++ b.readOf r { t with pending }, b.HasDialect x := by
    intro reads r pending t u hreads _ hstep x hx
    rcases List.mem_append.mp hx with hx | hx
    · exact hreads x hx
    · exact hasDialect_of_step hstep x hx
  have hnone : ∀ x ∈ ([] : List Read), b.HasDialect x := by simp
  have hrun := run_induction (P := fun reads _ => ∀ x ∈ reads, b.HasDialect x) hvisit hnone h
  rw [List.nil_append] at hrun
  exact hrun.1

/-! ## What is left out -/

/-- An import that was accepted is in the graph just if it has not the extension of a document. -/
theorem mem_resources_iff (hr : r ∈ t.accepted) (himport : r.isImport = true) :
    r ∈ (b.graph t).resources ↔ b.config.isDocument r.path = false := by
  unfold graph
  rw [List.mem_filter]
  simp [hr, himport]

/-- What was accepted at different paths is in the graph itself or not at all. -/
theorem isPathOf_resources (hdistinct : Distinct (t.accepted.map Resource.path)) (hr : r ∈ t.accepted)
    (hleft : r ∉ (b.graph t).resources) : r.path.isPathOf (b.graph t).resources = false := by
  refine Bool.eq_false_iff.mpr fun hpath => ?_
  obtain ⟨x, hx, hsame⟩ := isPathOf_iff.mp hpath
  have hne : r ≠ x := fun e => hleft (e ▸ hx)
  rw [hdistinct.same_eq_false hr (List.mem_filter.mp hx).1 hne] at hsame
  cases hsame

end Build

namespace Builder

variable {b : Builder σ} {root : Root} {s s' : BuildState σ} {fuel : Nat} {g : Graph}

/-- All that a build reads is accepted and was read in a dialect. Of the imports that are accepted, those that are read
as documents are not in the graph, and nothing else at their paths is; those that are read as modules or scripts are in
the graph just if they have not the extension of a document as well. -/
theorem left_out_of_build (h : b.build fuel root s = some (.ok g, s')) : ∃ t, b.traversal? fuel root s = some t ∧
    (∀ x ∈ b.reads fuel root s, x.resource ∈ t.accepted ∧ x.resource.isImport = true ∧
      ∃ dialect, b.config.dialect? x.resource.path = some dialect) ∧
    ∀ r ∈ t.accepted, r.isImport = true →
      (b.config.dialect? r.path = some .document → r.path.isPathOf g.resources = false) ∧
      (b.config.dialect? r.path = some .plainModule ∨ b.config.dialect? r.path = some .script →
        (r ∈ g.resources ↔ b.config.isDocument r.path = false)) := by
  obtain ⟨t, u, hrun, rfl, ht, rfl, -⟩ := exists_traversal h
  obtain ⟨rs, v, htrail, rfl, -⟩ := Build.exists_trail_of_run hrun
  obtain ⟨haccounted, -⟩ := Build.accounted_of_run hrun
  refine ⟨_, ht, ?_, ?_⟩
  · intro x hx
    obtain ⟨haccepted, himport⟩ := haccounted.read x hx
    obtain ⟨attached, -, hsettle⟩ := (b.buildOf root s.builds).exists_settleAttachments u
    refine ⟨?_, himport, Build.hasDialect_of_run hrun x hx⟩
    rw [hsettle]
    exact List.mem_append_left _ haccepted
  · intro r hr himport
    have hkept : r ∈ ((b.buildOf root s.builds).graph ((b.buildOf root s.builds).settleAttachments u)).resources ↔
        b.config.isDocument r.path = false := Build.mem_resources_iff hr himport
    refine ⟨fun hdialect => ?_, fun _ => hkept⟩
    apply Build.isPathOf_resources htrail.toured.settleAttachments.distinct_accepted hr
    rw [hkept, Configuration.isDocument_of_dialect? hdialect]
    exact fun e => Bool.false_ne_true e.symm

end Builder

/-! ## Modules with the extension of a document -/

namespace ModuleAndDocument

/-- A module and a document, each of which imports another module. -/
def disk : Disk := .ofTexts [(["a.md"], "import './b.js'"), (["b.js"], ""),
  (["c.qmd"], "```{ojs}\nimport './d.js'\n```\n"), (["d.js"], "")]

/-- A builder for which an extension of documents is one of modules, too. -/
def builder : Builder Disk := { Builder.onDisk with config := { moduleExtensions := ["js", "md"] } }

def root : Root := .script "import './a.md'\nimport './c.qmd'" ⟨"/"⟩

/-- All four files are accepted, and two of them are left out. -/
theorem exists_build : ∃ g s' t, builder.build 5 root ⟨disk, .empty, 0⟩ = some (.ok g, s') ∧
    builder.traversal? 5 root ⟨disk, .empty, 0⟩ = some t ∧
    g.resources.map Resource.path = [⟨"/b.js"⟩, ⟨"/d.js"⟩] ∧
    t.accepted.map (fun r => (r.path, r.isImport)) =
      [(⟨"/a.md"⟩, true), (⟨"/c.qmd"⟩, true), (⟨"/b.js"⟩, true), (⟨"/d.js"⟩, true)] := by
  obtain ⟨g, s', hbuild, hpaths⟩ := Outcome.exists_of_paths?
    (show (builder.build 5 root ⟨disk, .empty, 0⟩).paths? = some [⟨"/b.js"⟩, ⟨"/d.js"⟩] by decide +kernel)
  obtain ⟨t, -, -, -, ht, -⟩ := Builder.exists_traversal hbuild
  have haccepted : (builder.traversal? 5 root ⟨disk, .empty, 0⟩).map (fun t => t.accepted.map fun r =>
      (r.path, r.isImport)) =
      some [(⟨"/a.md"⟩, true), (⟨"/c.qmd"⟩, true), (⟨"/b.js"⟩, true), (⟨"/d.js"⟩, true)] := by decide +kernel
  rw [ht] at haccepted
  exact ⟨g, s', t, hbuild, ht, hpaths, Option.some.inj haccepted⟩

/-- The document is in the graph in no way, and the module behind it is. -/
theorem left_out_document : ∃ g s', builder.build 5 root ⟨disk, .empty, 0⟩ = some (.ok g, s') ∧
    (⟨"/c.qmd"⟩ : Path).isPathOf g.resources = false ∧ ∃ r ∈ g.resources, r.path = ⟨"/d.js"⟩ := by
  obtain ⟨g, s', t, hbuild, ht, -, haccepted⟩ := exists_build
  obtain ⟨t', ht', -, hleft⟩ := Builder.left_out_of_build hbuild
  rw [ht] at ht'
  cases ht'
  obtain ⟨document, hdocument, hc⟩ : ∃ r ∈ t.accepted, (r.path, r.isImport) = (⟨"/c.qmd"⟩, true) :=
    List.mem_map.mp (haccepted ▸ by decide)
  obtain ⟨m, hm, hd⟩ : ∃ r ∈ t.accepted, (r.path, r.isImport) = (⟨"/d.js"⟩, true) :=
    List.mem_map.mp (haccepted ▸ by decide)
  obtain ⟨hc, himport⟩ := Prod.mk.inj hc
  obtain ⟨hd, himport'⟩ := Prod.mk.inj hd
  refine ⟨g, s', hbuild, ?_, m, ?_, hd⟩
  · rw [← hc]
    exact (hleft document hdocument himport).1 (hc ▸ by decide +kernel)
  · exact ((hleft m hm himport').2 (Or.inl (hd ▸ by decide +kernel))).mpr (hd ▸ by decide +kernel)

/-- A file that was accepted and followed as a module is not in the graph. -/
theorem not_kept : ∃ g s' t, builder.build 5 root ⟨disk, .empty, 0⟩ = some (.ok g, s') ∧
    builder.traversal? 5 root ⟨disk, .empty, 0⟩ = some t ∧
    ∃ r ∈ t.accepted, r.isImport = true ∧ builder.config.dialect? r.path = some .plainModule ∧ r ∉ g.resources := by
  obtain ⟨g, s', t, hbuild, ht, hpaths, haccepted⟩ := exists_build
  obtain ⟨r, hr, ha⟩ : ∃ r ∈ t.accepted, (r.path, r.isImport) = (⟨"/a.md"⟩, true) :=
    List.mem_map.mp (haccepted ▸ by decide)
  obtain ⟨ha, himport⟩ := Prod.mk.inj ha
  refine ⟨g, s', t, hbuild, ht, r, hr, himport, ha ▸ by decide +kernel, fun hmem => ?_⟩
  have hpath : r.path ∈ g.resources.map Resource.path := List.mem_map_of_mem hmem
  rw [hpaths, ha] at hpath
  revert hpath
  decide

end ModuleAndDocument

end CellGraph
