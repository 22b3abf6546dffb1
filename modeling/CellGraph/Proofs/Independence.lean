import CellGraph.Disk.Update
import CellGraph.Project
import CellGraph.Proofs.Agreement

/-!
# Documents of a project

The documents of a project are built in turn, each on the files as those before it left them. What was compiled for one
of them stays there and is an ordinary file for the next, so a document may come to another graph than alone
(`RecoveredBefore.not_independent`). Nothing else passes from one document to the next: one that finds the same as alone
comes to the same resources (`Builder.independent_of_buildProject`). That is so as long as nothing has been compiled,
and in a part of the files that is left as it was, where the compiler works by that part alone.
-/

namespace CellGraph

variable {σ : Type}

namespace Builder

variable {b : Builder σ} {root : Root} {s s' : BuildState σ} {fuel : Nat}

/-! ## One document -/

/-- The root that the build of a document starts from. -/
def documentRoot (b : Builder σ) (p : Path) (text : String) : Root :=
  { Root.document (Document.scriptCells b.config p text) p.directory with path := some p }

/-- What the build of a document starts from, and what it finds from there. -/
def documentFindings (b : Builder σ) (fuel : Nat) (p : Path) (s : BuildState σ) :
    Except BuildError (Root × List Finding) :=
  match b.readRoot p s with
  | .error e => .error e
  | .ok text => .ok (b.documentRoot p text, b.findings fuel (b.documentRoot p text) s)

section Document

variable {p : Path}

theorem documentFindings_of_ok {text : String} (h : b.readRoot p s = .ok text) :
    b.documentFindings fuel p s = .ok (b.documentRoot p text, b.findings fuel (b.documentRoot p text) s) := by
  rw [documentFindings, h]

theorem documentFindings_of_error {e : BuildError} (h : b.readRoot p s = .error e) :
    b.documentFindings fuel p s = .error e := by
  rw [documentFindings, h]

theorem buildDocument_of_ok {text : String} (h : b.readRoot p s = .ok text) :
    b.buildDocument fuel p s = b.build fuel (b.documentRoot p text) s := by
  rw [buildDocument, h]
  rfl

theorem buildDocument_of_error {e : BuildError} (h : b.readRoot p s = .error e) :
    b.buildDocument fuel p s = some (.error e, s) := by
  rw [buildDocument, h]

/-- Documents that find the same come to the same. -/
theorem buildDocument_eq_of_findings (h : b.documentFindings fuel p s' = b.documentFindings fuel p s) :
    Outcome.bare (b.buildDocument fuel p s') = Outcome.bare (b.buildDocument fuel p s) := by
  cases hread : b.readRoot p s with
  | error e =>
    rw [documentFindings_of_error hread] at h
    cases hread' : b.readRoot p s' with
    | error e' =>
      rw [documentFindings_of_error hread'] at h
      rw [buildDocument_of_error hread, buildDocument_of_error hread', Except.error.inj h]
      rfl
    | ok text' =>
      rw [documentFindings_of_ok hread'] at h
      cases h
  | ok text =>
    rw [documentFindings_of_ok hread] at h
    cases hread' : b.readRoot p s' with
    | error e' =>
      rw [documentFindings_of_error hread'] at h
      cases h
    | ok text' =>
      rw [documentFindings_of_ok hread'] at h
      obtain ⟨hroot, hfindings⟩ := Prod.mk.inj (Except.ok.inj h)
      rw [hroot] at hfindings
      rw [buildDocument_of_ok hread, buildDocument_of_ok hread', hroot]
      exact build_eq_of_findings hfindings

/-- A document finds the same where it is read alike and its root finds the same. -/
theorem documentFindings_congr (hread : b.readRoot p s' = b.readRoot p s)
    (hfindings : ∀ text, b.readRoot p s = .ok text →
    b.findings fuel (b.documentRoot p text) s' = b.findings fuel (b.documentRoot p text) s) :
    b.documentFindings fuel p s' = b.documentFindings fuel p s := by
  cases h : b.readRoot p s with
  | error e => rw [documentFindings_of_error h, documentFindings_of_error (hread.trans h)]
  | ok text => rw [documentFindings_of_ok h, documentFindings_of_ok (hread.trans h), hfindings text h]

/-- On one disk a document finds the same. -/
theorem documentFindings_of_disk_eq (h : s'.disk = s.disk) :
    b.documentFindings fuel p s' = b.documentFindings fuel p s := by
  refine documentFindings_congr (by rw [readRoot, readRoot, h]) fun text _ => ?_
  exact findings_eq_of_foundAlike (Build.foundAlike_eq _) h.symm fun r _ => trivial

/-- Whether a document and all that its build looks up, with the typed sources beside it, are in a part of the files. -/
def LiesIn (b : Builder σ) (P : Path → Prop) (fuel : Nat) (p : Path) (s : BuildState σ) : Prop :=
  P p ∧ ∀ text, b.readRoot p s = .ok text → ∀ r ∈ b.lookups fuel (b.documentRoot p text) s,
    P r.path ∧ P (r.path.withExtension b.config.typedExtension)

/-- A document finds the same on disks that are the same where it lies, if the compiler works there. -/
theorem documentFindings_of_liesIn {P : Path → Prop}
    (hcompiler : ∀ compile, b.compiler = some compile → WorksIn b.files P compile)
    (hagree : b.files.AgreeOn P s.disk s'.disk) (h : b.LiesIn P fuel p s) :
    b.documentFindings fuel p s' = b.documentFindings fuel p s := by
  obtain ⟨hp, hlookups⟩ := h
  refine documentFindings_congr (by rw [readRoot, readRoot, (hagree p hp).1]) fun text htext => ?_
  exact findings_eq_of_foundAlike (Build.foundAlike_of_worksIn hcompiler) hagree (hlookups text htext)

end Document

/-- A build that comes to the same graph as another one has its resources. -/
theorem exists_of_bare_eq {o o' : Outcome σ Graph} {g : Graph} (h : o'.bare = o.bare) (ho : o = some (.ok g, s)) :
    ∃ g' t, o' = some (.ok g', t) ∧ g'.resources = g.resources ∧ g'.diagnostics = g.diagnostics := by
  subst ho
  obtain ⟨⟨result, t⟩, rfl, hresult⟩ := Option.map_eq_some_iff.mp h
  cases result with
  | error e => cases hresult
  | ok g' =>
    have hbare : g'.bare = g.bare := Except.ok.inj hresult
    have hresources := congrArg Graph.resources hbare
    have hdiagnostics := congrArg Graph.diagnostics hbare
    exact ⟨g', t, rfl, hresources, hdiagnostics⟩

/-! ## Documents in turn -/

theorem of_buildDocuments_cons {p : Path} {ps : List Path} {graphs : List (Path × Graph)}
    (h : b.buildDocuments fuel (p :: ps) s = some (.ok graphs, s')) : ∃ g rest t,
      b.buildDocument fuel p s = some (.ok g, t) ∧ b.buildDocuments fuel ps t = some (.ok rest, s') ∧
      graphs = (p, g) :: rest := by
  rw [buildDocuments] at h
  cases hp : b.buildDocument fuel p s with
  | none => simp [hp] at h
  | some result =>
    obtain ⟨_ | g, t⟩ := result
    · simp [hp] at h
    · simp only [hp] at h
      cases hps : b.buildDocuments fuel ps t with
      | none => simp [hps] at h
      | some result =>
        obtain ⟨_ | rest, t'⟩ := result
        · simp [hps] at h
        · simp only [hps, Option.some.injEq, Prod.mk.injEq, Except.ok.injEq] at h
          obtain ⟨rfl, rfl⟩ := h
          exact ⟨g, rest, t, rfl, hps, rfl⟩

/-- Documents that are built in turn are each built on what those before it left. -/
theorem of_buildDocuments {ps : List Path} {graphs : List (Path × Graph)}
    (h : b.buildDocuments fuel ps s = some (.ok graphs, s')) :
    graphs.map Prod.fst = ps ∧ ∀ before p g after, graphs = before ++ (p, g) :: after → ∃ u v,
      b.buildDocuments fuel (before.map Prod.fst) s = some (.ok before, u) ∧
        b.buildDocument fuel p u = some (.ok g, v) := by
  induction ps generalizing s graphs with
  | nil =>
    cases h
    exact ⟨rfl, by simp⟩
  | cons q ps ih =>
    obtain ⟨first, rest, t, hfirst, hrest, rfl⟩ := of_buildDocuments_cons h
    obtain ⟨hpaths, hgraphs⟩ := ih hrest
    refine ⟨by rw [List.map_cons, hpaths], ?_⟩
    intro before p g after hsplit
    cases before with
    | nil =>
      obtain ⟨hhead, -⟩ := List.cons.inj hsplit
      cases hhead
      exact ⟨s, t, rfl, hfirst⟩
    | cons x before =>
      obtain ⟨rfl, htail⟩ := List.cons.inj hsplit
      obtain ⟨u, v, hbefore, hp⟩ := hgraphs before p g after htail
      refine ⟨u, v, ?_, hp⟩
      simp only [List.map_cons, buildDocuments, hfirst, hbefore]

/-- A build that compiles nothing leaves the files as they were. -/
theorem disk_eq_of_build {g : Graph} (h : b.build fuel root s = some (.ok g, s')) (hnone : g.compiledFiles = []) :
    s'.disk = s.disk := by
  let untouched (f : Footprint σ) : Prop := f.compiledFiles = [] → f.disk = s.disk
  have heffect : ∀ {r : Resource} {f f' : Footprint σ}, untouched f → (b.buildOf root s.builds).Effect r f none f' →
      untouched f' := by
    intro r f f' hf heffect hnone
    cases heffect with
    | nothing => exact hf hnone
    | recovered _ hcompile => exact absurd (List.append_eq_nil_iff.mp hnone).2 hcompile.emitted_ne_nil
  obtain ⟨f, hf, -, hfiles, rfl⟩ := exists_footprint heffect (fun _ => rfl) h
  exact hf (hfiles ▸ hnone)

theorem disk_eq_of_buildDocument {p : Path} {g : Graph} (h : b.buildDocument fuel p s = some (.ok g, s'))
    (hnone : g.compiledFiles = []) : s'.disk = s.disk := by
  unfold buildDocument at h
  split at h
  · cases h
  · exact disk_eq_of_build h hnone

theorem disk_eq_of_buildDocuments {ps : List Path} {graphs : List (Path × Graph)}
    (h : b.buildDocuments fuel ps s = some (.ok graphs, s')) (hnone : ∀ x ∈ graphs, x.2.compiledFiles = []) :
    s'.disk = s.disk := by
  induction ps generalizing s graphs with
  | nil =>
    cases h
    rfl
  | cons p ps ih =>
    obtain ⟨g, rest, w, hp, hps, rfl⟩ := of_buildDocuments_cons h
    rw [ih hps fun x hx => hnone x (List.mem_cons_of_mem _ hx),
      disk_eq_of_buildDocument hp (hnone _ List.mem_cons_self)]

/-! ## A project -/

/-- A builder that has a directory as the base of its project. -/
def within (b : Builder σ) (project : Path) : Builder σ :=
  { b with config := { b.config with projectRoot := some project } }

/-- The graphs of a project are those of its documents as they were in the beginning, each built on what the ones before
it left. One that finds there what it would find in the beginning comes to the resources that it would have come to. -/
theorem independent_of_buildProject {project : Path} {graphs : List (Path × Graph)}
    (h : b.buildProject fuel project s = some (.ok graphs, s')) :
    let alone := b.within project
    graphs.map Prod.fst = projectDocuments b.files alone.config project s.disk ∧
    ∀ before p g after, graphs = before ++ (p, g) :: after → ∃ u v,
      alone.buildDocuments fuel (before.map Prod.fst) s = some (.ok before, u) ∧
      alone.buildDocument fuel p u = some (.ok g, v) ∧
      (alone.documentFindings fuel p u = alone.documentFindings fuel p s → ∃ g₀ v₀,
        alone.buildDocument fuel p s = some (.ok g₀, v₀) ∧
          g₀.resources = g.resources ∧ g₀.diagnostics = g.diagnostics) ∧
      ((∀ x ∈ before, x.2.compiledFiles = []) →
        alone.documentFindings fuel p u = alone.documentFindings fuel p s) ∧
      ∀ P, (∀ compile, b.compiler = some compile → WorksIn b.files P compile) → b.files.AgreeOn P s.disk u.disk →
        alone.LiesIn P fuel p s → alone.documentFindings fuel p u = alone.documentFindings fuel p s := by
  intro alone
  obtain ⟨hpaths, hgraphs⟩ := of_buildDocuments (b := alone) h
  refine ⟨hpaths, fun before p g after hsplit => ?_⟩
  obtain ⟨u, v, hbefore, hp⟩ := hgraphs before p g after hsplit
  refine ⟨u, v, hbefore, hp, fun hfindings => ?_, fun hnone => ?_, fun P hcompiler hagree hlies => ?_⟩
  · exact exists_of_bare_eq (buildDocument_eq_of_findings hfindings.symm) hp
  · exact documentFindings_of_disk_eq (disk_eq_of_buildDocuments hbefore hnone)
  · exact documentFindings_of_liesIn hcompiler hagree hlies

end Builder

/-! ## Compiled for another document -/

/-- The graphs of a project whose documents are found in the order of their paths. -/
theorem Builder.buildProject_eq {b : Builder σ} {project : Path} {s : BuildState σ} {ps : List Path} (fuel : Nat)
    (h : (b.files.filesBelow isSkippedDirectory project s.disk).filter
      (isScriptDocument b.files (b.within project).config s.disk) = ps)
    (hps : ps.Pairwise fun p q => (!q.before p) = true) :
    b.buildProject fuel project s = (b.within project).buildDocuments fuel ps s := by
  have hdocuments : projectDocuments b.files (b.within project).config project s.disk = ps := by
    rw [projectDocuments, h, List.mergeSort_of_pairwise hps]
  rw [← hdocuments]
  rfl

/-- The resources of the graphs of documents, if a build came to them. -/
def Outcome.documents? (o : Outcome σ (List (Path × Graph))) : Option (List (Path × List Path)) :=
  o.bind fun x => x.1.toOption.map fun graphs => graphs.map fun g => (g.1, g.2.resources.map Resource.path)

theorem Outcome.exists_of_documents? {o : Outcome σ (List (Path × Graph))} {documents : List (Path × List Path)}
    (h : o.documents? = some documents) : ∃ graphs s, o = some (.ok graphs, s) ∧
      graphs.map (fun g => (g.1, g.2.resources.map Resource.path)) = documents := by
  obtain ⟨⟨result, s⟩, rfl, h⟩ := Option.bind_eq_some_iff.mp h
  cases result with
  | ok graphs => exact ⟨graphs, s, rfl, Option.some.inj h⟩
  | error e => cases h

namespace RecoveredBefore

/-- A document with one import. -/
def document : String := "```{ojs}\nimport './a.js'\n```\n"

/-- Two documents that import the same module, which is to be compiled. -/
def disk : Disk := .ofTexts [(["one.qmd"], document), (["two.qmd"], document), (["a.ts"], "")]

/-- A compiler that writes a second module with the first one. -/
def compiler : Compiler Disk
  | .list typed, d => (⟨true, "", [typed]⟩, d)
  | .emit _, d => (⟨true, "", [⟨"/a.js"⟩, ⟨"/b.js"⟩]⟩, (d.put ["a.js"] (.file [] false)).put ["b.js"] (.file [] false))

def builder : Builder Disk := { Builder.onDisk with compiler := some compiler }

/-- The second document finds the module compiled, and lacks the other one that it would have had alone. -/
theorem not_independent : ∃ graphs s' g g₀ t, builder.buildProject 4 ⟨"/"⟩ ⟨disk, .empty, 0⟩ = some (.ok graphs, s') ∧
    (⟨"/two.qmd"⟩, g) ∈ graphs ∧
    (builder.within ⟨"/"⟩).buildDocument 4 ⟨"/two.qmd"⟩ ⟨disk, .empty, 0⟩ = some (.ok g₀, t) ∧
    g.resources ≠ g₀.resources := by
  have hproject : builder.buildProject 4 ⟨"/"⟩ ⟨disk, .empty, 0⟩ =
      (builder.within ⟨"/"⟩).buildDocuments 4 [⟨"/one.qmd"⟩, ⟨"/two.qmd"⟩] ⟨disk, .empty, 0⟩ :=
    Builder.buildProject_eq 4 (by decide +kernel) (by decide)
  obtain ⟨graphs, s', hgraphs, hpaths⟩ := Outcome.exists_of_documents?
    (show ((builder.within ⟨"/"⟩).buildDocuments 4 [⟨"/one.qmd"⟩, ⟨"/two.qmd"⟩] ⟨disk, .empty, 0⟩).documents? =
      some [(⟨"/one.qmd"⟩, [⟨"/a.js"⟩, ⟨"/b.js"⟩]), (⟨"/two.qmd"⟩, [⟨"/a.js"⟩])] by decide +kernel)
  obtain ⟨g₀, t, halone, hpaths₀⟩ := Outcome.exists_of_paths?
    (show ((builder.within ⟨"/"⟩).buildDocument 4 ⟨"/two.qmd"⟩ ⟨disk, .empty, 0⟩).paths? =
        some [⟨"/a.js"⟩, ⟨"/b.js"⟩] by
      decide +kernel)
  obtain ⟨⟨p, g⟩, hg, hpath⟩ := List.mem_map.mp
    (hpaths ▸ List.mem_cons_of_mem _ List.mem_cons_self : ((⟨"/two.qmd"⟩ : Path), [⟨"/a.js"⟩]) ∈
      graphs.map fun g => (g.1, g.2.resources.map Resource.path))
  obtain ⟨rfl, hresources⟩ := Prod.mk.inj hpath
  refine ⟨graphs, s', g, g₀, t, hproject.trans hgraphs, hg, halone, fun hsame => ?_⟩
  rw [hsame, hpaths₀] at hresources
  exact absurd hresources (by decide)

end RecoveredBefore

namespace RecoveredApart

/-- Two documents in directories of their own, each with a module to be compiled. -/
def disk : Disk := (Disk.ofTexts [(["one", "one.qmd"], RecoveredBefore.document), (["one", "a.ts"], ""),
  (["two", "two.qmd"], RecoveredBefore.document), (["two", "a.ts"], "")]).put ["two"] .directory
  |>.put ["one"] .directory

/-- A compiler that writes the module of the one source or of the other. -/
def compiler : Compiler Disk
  | .list typed, d => (⟨true, "", [typed]⟩, d)
  | .emit sources, d =>
    let directory := if sources = [⟨"/one/a.ts"⟩] then "one" else "two"
    (⟨true, "", [⟨"/" ++ directory ++ "/a.js"⟩]⟩, d.put [directory, "a.js"] (.file [] false))

def builder : Builder Disk := { Builder.onDisk with compiler := some compiler }

/-- A module is compiled for the first document, and the second one has the resources that it would have had alone. -/
theorem resources_eq_alone : ∃ graphs s' result u g g₀ t,
    builder.buildProject 4 ⟨"/"⟩ ⟨disk, .empty, 0⟩ = some (.ok graphs, s') ∧ (⟨"/two/two.qmd"⟩, g) ∈ graphs ∧
    (builder.within ⟨"/"⟩).buildDocuments 4 [⟨"/one/one.qmd"⟩] ⟨disk, .empty, 0⟩ = some (result, u) ∧ u.disk ≠ disk ∧
    (builder.within ⟨"/"⟩).buildDocument 4 ⟨"/two/two.qmd"⟩ ⟨disk, .empty, 0⟩ = some (.ok g₀, t) ∧
    g₀.resources = g.resources := by
  have hproject : builder.buildProject 4 ⟨"/"⟩ ⟨disk, .empty, 0⟩ =
      (builder.within ⟨"/"⟩).buildDocuments 4 [⟨"/one/one.qmd"⟩, ⟨"/two/two.qmd"⟩] ⟨disk, .empty, 0⟩ :=
    Builder.buildProject_eq 4 (by decide +kernel) (by decide)
  obtain ⟨graphs, s', hgraphs, hpaths⟩ := Outcome.exists_of_documents?
    (show ((builder.within ⟨"/"⟩).buildDocuments 4 [⟨"/one/one.qmd"⟩, ⟨"/two/two.qmd"⟩] ⟨disk, .empty, 0⟩).documents? =
      some [(⟨"/one/one.qmd"⟩, [⟨"/one/a.js"⟩]), (⟨"/two/two.qmd"⟩, [⟨"/two/a.js"⟩])] by decide +kernel)
  obtain ⟨first, g, rfl⟩ : ∃ first g, graphs = [(⟨"/one/one.qmd"⟩, first), (⟨"/two/two.qmd"⟩, g)] := by
    rcases graphs with _ | ⟨⟨p, first⟩, _ | ⟨⟨q, g⟩, _ | _⟩⟩ <;> simp at hpaths
    obtain ⟨⟨rfl, -⟩, rfl, -⟩ := hpaths
    exact ⟨first, g, rfl⟩
  obtain ⟨-, hindependent⟩ := Builder.independent_of_buildProject (hproject.trans hgraphs)
  obtain ⟨u, v, hbefore, -, halone, -⟩ := hindependent [(_, first)] _ g [] rfl
  have hbetween : ((builder.within ⟨"/"⟩).buildDocuments 4 [⟨"/one/one.qmd"⟩] ⟨disk, .empty, 0⟩).all (fun x =>
      x.2.disk ≠ disk ∧ (builder.within ⟨"/"⟩).documentFindings 4 ⟨"/two/two.qmd"⟩ x.2 =
        (builder.within ⟨"/"⟩).documentFindings 4 ⟨"/two/two.qmd"⟩ ⟨disk, .empty, 0⟩) = true := by decide +kernel
  have hfirst : (builder.within ⟨"/"⟩).buildDocuments 4 [⟨"/one/one.qmd"⟩] ⟨disk, .empty, 0⟩ = _ := hbefore
  rw [hfirst] at hbetween
  obtain ⟨hchanged, hfindings⟩ := of_decide_eq_true (show decide _ = true from hbetween)
  obtain ⟨g₀, t, hg₀, hresources, -⟩ := halone hfindings
  exact ⟨_, s', _, u, g, g₀, t, hproject.trans hgraphs, List.mem_cons_of_mem _ List.mem_cons_self, hfirst, hchanged,
    hg₀, hresources⟩

end RecoveredApart

end CellGraph
