import CellGraph.Proofs.Places
import CellGraph.Proofs.Reachability

/-!
# What a build depends on

Two builds without a compiler go alike, on different disks and even from different roots, as long as their roots refer
to the same (`StartsAlike`) and all that the first one visits leads on alike (`LeadsAlike`): they visit the same
resources one by one, and end in the same way (`endsAlike_run`, `Builder.build_alike`). Where only the contents of files
differ that the first build does not read, all leads on alike, and the other build comes to the same
(`Builder.build_eq_of_agree`).
-/

namespace CellGraph

variable {σ : Type}

namespace Build

variable {b : Build σ} {root root' : Root} {disk disk' : σ} {registry registry' : Registry} {done : List Resource}
  {t t' : Traversal σ} {r : Resource}

/-! ## Leading on alike -/

/-- Whether a resource is the same to a traversal on two disks: it is there or not, it lacks a dialect or not, and it
refers to the same. -/
structure LeadsAlike (b : Build σ) (disk disk' : σ) (r : Resource) : Prop where
  isThere : b.isThere disk' r = b.isThere disk r
  lacksDialect : b.lacksDialect disk' r = b.lacksDialect disk r
  imports : b.importsOf disk' r = b.importsOf disk r
  attachments : b.attachmentsOf disk' r = b.attachmentsOf disk r

/-- Whether two roots start a traversal alike. -/
structure StartsAlike (b : Build σ) (root root' : Root) : Prop where
  path : b.rootPath root' = b.rootPath root
  imports : b.rootImports root' = b.rootImports root
  attachments : b.rootAttachments root' = b.rootAttachments root

theorem StartsAlike.refl (b : Build σ) (root : Root) : b.StartsAlike root root := ⟨rfl, rfl, rfl⟩

theorem LeadsAlike.refl (b : Build σ) (disk : σ) (r : Resource) : b.LeadsAlike disk disk r := ⟨rfl, rfl, rfl, rfl⟩

/-- A resource with the same text leads on alike. -/
theorem LeadsAlike.of_textOf? (htext : b.textOf? disk' r = b.textOf? disk r)
    (hfile : b.files.isFile r.path disk' = b.files.isFile r.path disk) : b.LeadsAlike disk disk' r where
  isThere := by unfold Build.isThere; rw [htext, hfile]
  lacksDialect := by unfold Build.lacksDialect; rw [htext]
  imports := by unfold importsOf; rw [htext]
  attachments := by unfold attachmentsOf; rw [htext]

theorem flatMap_importsOf_alike (h : ∀ r ∈ done, b.LeadsAlike disk disk' r) :
    done.flatMap (b.importsOf disk') = done.flatMap (b.importsOf disk) :=
  List.flatMap_congr fun r hr => (h r hr).imports

theorem flatMap_attachmentsOf_alike (h : ∀ r ∈ done, b.LeadsAlike disk disk' r) :
    done.flatMap (b.attachmentsOf disk') = done.flatMap (b.attachmentsOf disk) :=
  List.flatMap_congr fun r hr => (h r hr).attachments

/-- The same is found in what leads on alike. -/
theorem StartsAlike.found_eq (hroot : b.StartsAlike root root') (h : ∀ r ∈ done, b.LeadsAlike disk disk' r) :
    b.found root' disk' done = b.found root disk done := by
  unfold found
  rw [hroot.imports, hroot.attachments, flatMap_importsOf_alike h]

/-! ## Two traversals -/

section Alike

variable (hroot : b.StartsAlike root root') (hdone : ∀ r ∈ done, b.LeadsAlike disk disk' r)
  (h : Progress b root disk registry done t) (h' : Progress b root' disk' registry' done t')
include hroot hdone h h'

/-- Behind the same visits the same waits. -/
theorem Progress.pending_alike : t'.pending = t.pending := by
  have hwaits := h'.waits
  rw [hroot.path, hroot.found_eq hdone, h.waits] at hwaits
  exact (List.append_cancel_left hwaits).symm

theorem Progress.isAmong_knownPaths_alike (p : Path) : p.isAmong t'.knownPaths = p.isAmong t.knownPaths := by
  rw [h'.isAmong_knownPaths, h.isAmong_knownPaths, hroot.path, hroot.found_eq hdone]

/-- At the end of both, the same is kept. -/
theorem Progress.kept_alike (ht : t.pending = []) :
    b.kept root' disk' (b.rootPath root').toList done.length =
      b.kept root disk (b.rootPath root).toList done.length := by
  have ht' : t'.pending = [] := (h.pending_alike hroot hdone h').trans ht
  rw [h.kept_eq ht, h'.kept_eq ht', flatMap_attachmentsOf_alike hdone,
    firstSeen_congr (h.isAmong_knownPaths_alike hroot hdone h')]

end Alike

/-- The resources that a run visits in turn, up to one that fails it. -/
def visitsOf (b : Build σ) : Nat → Traversal σ → List Resource
  | 0, _ => []
  | fuel + 1, t =>
    match t.pending with
    | [] => []
    | r :: pending =>
      match b.step r { t with pending } with
      | (some _, _) => [r]
      | (none, u) => r :: b.visitsOf fuel u

/-- How a run ends as another one does that has visited some resources: behind these visits with nothing waiting, with
the same error, or without fuel. -/
def EndsAlike (b : Build σ) (root root' : Root) (disk disk' : σ) (registry registry' : Registry)
    (visits : List Resource) (result' : Option (Option BuildError × Traversal σ)) :
    Option (Option BuildError × Traversal σ) → Prop
  | none => result' = none
  | some (none, u) => ∃ u', result' = some (none, u') ∧ Progress b root disk registry visits u ∧
      Progress b root' disk' registry' visits u' ∧ u.pending = []
  | some (some e, _) => ∃ u', result' = some (some e, u')

/-- Runs end alike if all that the first one visits leads on alike. -/
theorem endsAlike_run (hb : b.compiler = none) (hroot : b.StartsAlike root root') (fuel : Nat)
    (hdone : ∀ r ∈ done, b.LeadsAlike disk disk' r) (h : Progress b root disk registry done t)
    (h' : Progress b root' disk' registry' done t') (hvisits : ∀ r ∈ b.visitsOf fuel t, b.LeadsAlike disk disk' r) :
    EndsAlike b root root' disk disk' registry registry' (done ++ b.visitsOf fuel t) (b.run fuel t')
      (b.run fuel t) := by
  induction fuel generalizing done t t' with
  | zero =>
    rw [Build.run, Build.run, visitsOf, List.append_nil, h.pending_alike hroot hdone h']
    split
    · exact ⟨t', rfl, h, h', ‹_›⟩
    · rfl
  | succ fuel ih =>
    have hwaits : t'.pending = t.pending := h.pending_alike hroot hdone h'
    rw [Build.run, Build.run, visitsOf, hwaits]
    rw [visitsOf] at hvisits
    cases ht : t.pending with
    | nil =>
      rw [List.append_nil]
      exact ⟨t', rfl, h, h', ht⟩
    | cons r pending =>
      have ht' : t'.pending = r :: pending := hwaits.trans ht
      simp only [ht] at hvisits ⊢
      cases hr : b.lacksDialect disk r with
      | true =>
        obtain ⟨u, hu, -, -⟩ := h.step_of_lacksDialect hb ht hr
        simp only [hu] at hvisits ⊢
        have hleads := hvisits r List.mem_cons_self
        obtain ⟨u', hu', -, -⟩ := h'.step_of_lacksDialect hb ht' (hleads.lacksDialect.trans hr)
        simp only [hu']
        exact ⟨u', rfl⟩
      | false =>
        obtain ⟨u, hu, hprogress⟩ := h.step hb ht hr
        simp only [hu] at hvisits ⊢
        have hleads := hvisits r List.mem_cons_self
        obtain ⟨u', hu', hprogress'⟩ := h'.step hb ht' (hleads.lacksDialect.trans hr)
        have hdone' : ∀ x ∈ done ++ [r], b.LeadsAlike disk disk' x := by
          intro x hx
          rcases List.mem_append.mp hx with hx | hx
          · exact hdone x hx
          · rwa [List.mem_singleton.mp hx]
        simp only [hu']
        rw [List.append_cons]
        exact ih hdone' hprogress hprogress' fun x hx => hvisits x (List.mem_cons_of_mem _ hx)

/-- Runs of two roots end alike if all that the first one visits leads on alike. -/
theorem endsAlike_seed (hb : b.compiler = none) (hroot : b.StartsAlike root root') (registry registry' : Registry)
    (fuel : Nat) (hvisits : ∀ r ∈ b.visitsOf fuel (b.seed root disk registry), b.LeadsAlike disk disk' r) :
    EndsAlike b root root' disk disk' registry registry' (b.visitsOf fuel (b.seed root disk registry))
      (b.run fuel (b.seed root' disk' registry')) (b.run fuel (b.seed root disk registry)) :=
  endsAlike_run hb hroot fuel (by simp) (.seed b root disk registry) (.seed b root' disk' registry') hvisits

/-- A run that ends well has done what it visited. -/
theorem progress_visitsOf (hb : b.compiler = none) {fuel : Nat} {u : Traversal σ}
    (h : b.run fuel (b.seed root disk registry) = some (none, u)) :
    Progress b root disk registry (b.visitsOf fuel (b.seed root disk registry)) u := by
  have hends := endsAlike_seed hb (.refl b root) registry registry fuel fun r _ => .refl b disk r
  rw [h] at hends
  obtain ⟨-, -, hprogress, -, -⟩ := hends
  exact hprogress

/-- What is kept has been visited, or is attached by a module. -/
theorem Progress.exists_kept_eq (h : Progress b root disk registry done t) (ht : t.pending = []) :
    ∃ attached : List Resource, (∀ r ∈ attached, r.isImport = false) ∧
      b.kept root disk (b.rootPath root).toList done.length = done ++ attached := by
  refine ⟨_, fun r hr => ?_, h.kept_eq ht⟩
  obtain ⟨m, -, hm⟩ := List.mem_flatMap.mp (mem_of_mem_firstSeen hr)
  exact isImport_of_mem_attachmentsOf hm

/-- An import that is kept is not one of the resources that modules attach. -/
theorem mem_visited_of_import {kept visited attached : List Resource} (hkept : kept = visited ++ attached)
    (hattached : ∀ r ∈ attached, r.isImport = false) {r : Resource} (hr : r ∈ kept) (himport : r.isImport = true) :
    r ∈ visited := by
  rw [hkept] at hr
  rcases List.mem_append.mp hr with hr | hr
  · exact hr
  · cases himport.symm.trans (hattached r hr)

end Build

namespace Builder

variable {b : Builder σ} {root root' : Root} {s s' : BuildState σ} {fuel : Nat}

/-- The resources that a build visits in turn. -/
def visits (b : Builder σ) (fuel : Nat) (root : Root) (s : BuildState σ) : List Resource :=
  (b.buildOf root s.builds).visitsOf fuel ((b.buildOf root s.builds).seed root s.disk s.registry)

section Alike

variable (hb : b.compiler = none) (hdirectory : root'.directory = root.directory)
  (hroot : (b.buildOf root s.builds).StartsAlike root root')
  (hvisits : ∀ r ∈ b.visits fuel root s, (b.buildOf root s.builds).LeadsAlike s.disk s'.disk r)
include hb hdirectory hroot hvisits

/-- A build fails as another one does if all that this one visits leads on alike. -/
theorem build_error_alike {e : BuildError} {t : BuildState σ} (h : b.build fuel root s = some (.error e, t)) :
    ∃ t', b.build fuel root' s' = some (.error e, t') := by
  have hends := Build.endsAlike_seed hb hroot s.registry s'.registry fuel hvisits
  rw [build_eq_map_run] at h
  obtain ⟨⟨error, u⟩, hrun, houtcome⟩ := Option.map_eq_some_iff.mp h
  cases error with
  | none => cases houtcome
  | some error =>
    cases houtcome
    rw [hrun] at hends
    obtain ⟨u', hrun'⟩ := hends
    rw [build_eq_map_named hb root s.builds hdirectory, hrun']
    exact ⟨_, rfl⟩

/-- A build runs out of fuel as another one does if all that this one visits leads on alike. -/
theorem build_none_alike (h : b.build fuel root s = none) : b.build fuel root' s' = none := by
  have hends := Build.endsAlike_seed hb hroot s.registry s'.registry fuel hvisits
  rw [build_eq_map_run, Option.map_eq_none_iff] at h
  rw [h] at hends
  rw [build_eq_map_named hb root s.builds hdirectory, hends]
  rfl

/-- A build keeps what another one keeps if all that this one visits leads on alike. -/
theorem build_ok_alike {g : Graph} {t : BuildState σ} (h : b.build fuel root s = some (.ok g, t)) :
    let build := b.buildOf root s.builds
    ∃ n attached t', build.kept root s.disk (build.rootPath root).toList n = b.visits fuel root s ++ attached ∧
      (∀ r ∈ attached, r.isImport = false) ∧
      build.kept root' s'.disk (build.rootPath root').toList n = b.visits fuel root s ++ attached ∧
      g = build.reading root s.disk (build.rootPath root).toList n ∧
      b.build fuel root' s' = some (.ok ((build.reading root' s'.disk (build.rootPath root').toList n).named
        (root'.buildId s'.builds)), t') := by
  intro build
  have hends := Build.endsAlike_seed hb hroot s.registry s'.registry fuel hvisits
  rw [build_eq_map_run] at h
  obtain ⟨⟨error, u⟩, hrun, houtcome⟩ := Option.map_eq_some_iff.mp h
  cases error with
  | some error => cases houtcome
  | none =>
    rw [hrun] at hends
    obtain ⟨u', hrun', hprogress, hprogress', hpending⟩ := hends
    have hpending' : u'.pending = [] := (hprogress.pending_alike hroot hvisits hprogress').trans hpending
    obtain ⟨attached, hattached, hkept⟩ := hprogress.exists_kept_eq hpending
    have hbuild : b.build fuel root' s' = _ := build_eq_map_named hb root s.builds hdirectory
    rw [hrun', Option.map_some, Build.outcome, hprogress'.graph_eq hpending'] at hbuild
    cases houtcome
    rw [hprogress.graph_eq hpending]
    exact ⟨_, attached, _, hkept, hattached, (hprogress.kept_alike hroot hvisits hprogress' hpending).trans hkept, rfl,
      hbuild⟩

end Alike

end Builder

/-! ## Files that are not read -/

namespace Build

variable {b : Build σ} {root : Root} {disk disk' : σ} {r : Resource}

/-- A path is read alike on two disks if reading it fails alike and it leads to the same text, if to any. -/
theorem readText_eq_of_agree {p : Path}
    (herror : ∀ e, b.files.readText p disk' = .error e ↔ b.files.readText p disk = .error e)
    (htext : (b.files.readText p disk).isOk = true → b.files.readText p disk' = b.files.readText p disk) :
    b.files.readText p disk' = b.files.readText p disk := by
  cases hread : b.files.readText p disk with
  | ok text => rw [htext (by rw [hread]; rfl), hread]
  | error e => exact (herror e).mpr hread

section Agree

variable (hfile : b.files.isFile r.path disk' = b.files.isFile r.path disk)
  (hread : r.isImport = true → b.files.readText r.path disk' = b.files.readText r.path disk)
include hfile hread

theorem LeadsAlike.of_agree : b.LeadsAlike disk disk' r := by
  refine .of_textOf? ?_ hfile
  unfold textOf?
  split
  · rename_i himport
    rw [hread himport]
  · rfl

theorem diagnosticsOf_of_agree : b.diagnosticsOf disk' r = b.diagnosticsOf disk r := by
  unfold diagnosticsOf
  split
  · rename_i himport
    rw [hread himport]
  · rw [hfile]

end Agree

/-- The same is read of the same resources. -/
theorem reading_of_agree (hfile : ∀ p, b.files.isFile p disk' = b.files.isFile p disk) {skipped : List Path} {n : Nat}
    (hkept : b.kept root disk' skipped n = b.kept root disk skipped n)
    (hread : ∀ r ∈ b.kept root disk skipped n, r.isImport = true →
      b.files.readText r.path disk' = b.files.readText r.path disk) :
    b.reading root disk' skipped n = b.reading root disk skipped n := by
  have hthere : ∀ r ∈ b.kept root disk skipped n, b.isThere disk' r = b.isThere disk r := fun r hr =>
    (LeadsAlike.of_agree (hfile r.path) (hread r hr)).isThere
  unfold reading
  rw [hkept, List.flatMap_congr fun r hr => diagnosticsOf_of_agree (hfile r.path) (hread r hr),
    List.filter_congr fun r hr => by rw [hthere r hr]]

end Build

namespace Builder

variable {b : Builder σ} {root : Root} {s s' : BuildState σ} {fuel : Nat}

/-- What is accepted has been visited and is there, or is attached by a module. -/
theorem exists_accepted_eq (hb : b.compiler = none) {u : Traversal σ} (h : b.traversal? fuel root s = some u) :
    ∃ attached : List Resource, (∀ r ∈ attached, r.isImport = false) ∧
      u.accepted = (b.visits fuel root s).filter ((b.buildOf root s.builds).isThere s.disk) ++ attached := by
  unfold traversal? at h
  split at h
  · rename_i v hrun
    cases h
    obtain ⟨rs, hrs, hsettle⟩ := (b.buildOf root s.builds).exists_settleAttachments v
    refine ⟨rs.filter fun r => b.files.isFile r.path v.disk, fun r hr => hrs r (List.mem_filter.mp hr).1, ?_⟩
    rw [hsettle, (Build.progress_visitsOf hb hrun).accepted]
    rfl
  · cases h

/-- A build without a compiler depends only on which paths lead to files, on how the imports that it visits cannot be
read, and on the texts of those that it accepts, or visits if it fails: where these are the same, it comes to the same
graph, but for its name, or to the same error. -/
theorem build_eq_of_agree (hb : b.compiler = none) (hfile : ∀ p, b.files.isFile p s'.disk = b.files.isFile p s.disk)
    (herror : ∀ r ∈ b.visits fuel root s, r.isImport = true →
      ∀ e, b.files.readText r.path s'.disk = .error e ↔ b.files.readText r.path s.disk = .error e) :
    (∀ g t u, b.build fuel root s = some (.ok g, t) → b.traversal? fuel root s = some u →
      (∀ r ∈ u.accepted, r.isImport = true → b.files.readText r.path s'.disk = b.files.readText r.path s.disk) →
      ∃ t', b.build fuel root s' = some (.ok (g.named (root.buildId s'.builds)), t')) ∧
    ∀ e t, b.build fuel root s = some (.error e, t) →
      (∀ r ∈ b.visits fuel root s, r.isImport = true →
        b.files.readText r.path s'.disk = b.files.readText r.path s.disk) →
      ∃ t', b.build fuel root s' = some (.error e, t') := by
  constructor
  · intro g t u hbuild hu hagree
    have haccepted : ∀ r ∈ b.visits fuel root s, r.isImport = true →
        (b.files.readText r.path s.disk).isOk = true → r ∈ u.accepted := by
      intro r hr himport hok
      obtain ⟨_, -, haccepted⟩ := exists_accepted_eq hb hu
      rw [haccepted]
      exact List.mem_append_left _ (List.mem_filter.mpr ⟨hr, Build.isThere_of_isOk hok fun hattached =>
        nomatch himport.symm.trans hattached⟩)
    have hread : ∀ r ∈ b.visits fuel root s, r.isImport = true →
        b.files.readText r.path s'.disk = b.files.readText r.path s.disk := fun r hr himport =>
      Build.readText_eq_of_agree (b := b.buildOf root s.builds) (herror r hr himport) fun hok =>
        hagree r (haccepted r hr himport hok) himport
    obtain ⟨n, attached, t', hkept, hattached, hkept', rfl, hbuild'⟩ := build_ok_alike hb rfl (.refl _ root)
      (fun r hr => .of_agree (hfile r.path) (hread r hr)) hbuild
    have hsame : ∀ r ∈ (b.buildOf root s.builds).kept root s.disk ((b.buildOf root s.builds).rootPath root).toList n,
        r.isImport = true → b.files.readText r.path s'.disk = b.files.readText r.path s.disk := fun r hr himport =>
      hread r (Build.mem_visited_of_import hkept hattached hr himport) himport
    rw [Build.reading_of_agree hfile (hkept'.trans hkept.symm) hsame] at hbuild'
    exact ⟨t', hbuild'⟩
  · intro e t hbuild hagree
    exact build_error_alike hb rfl (.refl _ root) (fun r hr => .of_agree (hfile r.path) (hagree r hr)) hbuild

end Builder

/-! ## Overwriting what is not read -/

namespace Unread

/-- A module that imports another one, and a third one that nothing refers to. -/
def disk : Disk := .ofTexts [(["a.js"], "import './b.js'"), (["b.js"], ""), (["c.js"], ""), (["data.csv"], "1")]

/-- The disk with no text in the second module and another one in the third. -/
def overwritten : Disk := (disk.put ["b.js"] (.file [0xFF] false)).put ["c.js"] (.file (Text.encode "no script") false)

theorem isFile_overwritten (p : Path) : overwritten.isFile p = disk.isFile p :=
  (Disk.isFile_put (show (disk.put _ _).get? ["c.js"] = some (.file [] false) by decide) _ p).trans
    (Disk.isFile_put (show disk.get? ["b.js"] = some (.file [] false) by decide) _ p)

/-- A cell that attaches what the module that it imports imports itself. -/
def root : Root := .script "import './a.js'\nFileAttachment('b.js')" ⟨"/"⟩

/-- A cell that imports a file without a dialect. -/
def failing : Root := .script "import './a.js'\nimport './data.csv'" ⟨"/"⟩

/-- The imports among resources. -/
def importPaths (rs : List Resource) : List Path := (rs.filter Resource.isImport).map Resource.path

/-- Imports of the two files that stay as they are are read as before. -/
theorem readText_overwritten {rs : List Resource} (h : importPaths rs ⊆ [⟨"/a.js"⟩, ⟨"/data.csv"⟩]) :
    ∀ r ∈ rs, r.isImport = true →
      Disk.fileSystem.readText r.path overwritten = Disk.fileSystem.readText r.path disk := by
  intro r hr himport
  have hpath : r.path ∈ importPaths rs := List.mem_map_of_mem (List.mem_filter.mpr ⟨hr, himport⟩)
  have htexts : ∀ p ∈ [(⟨"/a.js"⟩ : Path), ⟨"/data.csv"⟩],
      Disk.fileSystem.readText p overwritten = Disk.fileSystem.readText p disk := by decide +kernel
  exact htexts _ (h hpath)

/-- The module that is attached first is not read, so what is in it changes neither the graph of the one root nor the
error of the other one. -/
theorem build_overwritten :
    (∃ g t t', Builder.onDisk.build 4 root ⟨disk, .empty, 0⟩ = some (.ok g, t) ∧
      Builder.onDisk.build 4 root ⟨overwritten, .empty, 1⟩ = some (.ok (g.named (root.buildId 1)), t') ∧
      g.resources.map Resource.path = [⟨"/a.js"⟩, ⟨"/b.js"⟩]) ∧
    ∃ t', Builder.onDisk.build 4 failing ⟨overwritten, .empty, 1⟩ =
      some (.error (.unknownDialect ⟨"/data.csv"⟩), t') := by
  have hvisits : ∀ r, r = root ∨ r = failing →
      importPaths (Builder.onDisk.visits 4 r ⟨disk, .empty, 0⟩) ⊆ [⟨"/a.js"⟩, ⟨"/data.csv"⟩] := by
    rintro r (rfl | rfl) <;> decide +kernel
  have hagree := fun (r : Root) (hr : r = root ∨ r = failing) =>
    @Builder.build_eq_of_agree Disk Builder.onDisk r ⟨disk, .empty, 0⟩ ⟨overwritten, .empty, 1⟩ 4 rfl isFile_overwritten
      fun x hx himport e => readText_overwritten (hvisits r hr) x hx himport ▸ Iff.rfl
  constructor
  · obtain ⟨g, t, hbuild, hpaths⟩ := Outcome.exists_of_paths?
      (show (Builder.onDisk.build 4 root ⟨disk, .empty, 0⟩).paths? = some [⟨"/a.js"⟩, ⟨"/b.js"⟩] by decide +kernel)
    obtain ⟨u, -, -, -, hu, -, -⟩ := Builder.exists_traversal hbuild
    have himports : (Builder.onDisk.traversal? 4 root ⟨disk, .empty, 0⟩).map (fun u => importPaths u.accepted) =
        some [⟨"/a.js"⟩] := by decide +kernel
    rw [hu, Option.map_some, Option.some.injEq] at himports
    obtain ⟨t', hbuild'⟩ := (hagree root (Or.inl rfl)).1 g t u hbuild hu (readText_overwritten (by simp [himports]))
    exact ⟨g, t, t', hbuild, hbuild', hpaths⟩
  · obtain ⟨t, hbuild⟩ := Outcome.exists_of_error?
      (show (Builder.onDisk.build 4 failing ⟨disk, .empty, 0⟩).error? = some (.unknownDialect ⟨"/data.csv"⟩) by
        decide +kernel)
    exact (hagree failing (Or.inr rfl)).2 _ t hbuild (readText_overwritten (hvisits failing (Or.inr rfl)))

end Unread

end CellGraph
