import CellGraph.Disk.Update
import CellGraph.Proofs.NormalPath
import CellGraph.Proofs.Progress
import CellGraph.Proofs.Reading

/-!
# Chains of imports

Whatever imports lead to from a root is accepted by a build without a compiler (`Builder.accepted_of_importChain`), in
cyclic graphs and whatever else refers to the files on the way. There is one exception: the attachments of the root come
before the imports of modules, and the first reference to a file counts. A file that the root attaches and does not
itself import is an attachment even if modules import it. It has to be a regular file, and it is not read, so a chain
that goes on from it may be lost (`AttachedAgain.not_accepted_of_attachedFirst`).
-/

namespace CellGraph

variable {σ : Type}

namespace Build

/-- A chain of imports from a root to a path, with the paths on the way. -/
inductive ImportChain (b : Build σ) (root : Root) (disk : σ) : List Path → Path → Prop
  | root {p : Path} (h : p ∈ (b.rootImports root).map Resource.path) : ImportChain b root disk [] p
  | next {ps : List Path} {p q : Path} {text : String} (h : ImportChain b root disk ps p)
      (hread : b.files.readText p disk = .ok text) (hq : q ∈ (b.importedBy p text).map Resource.path) :
      ImportChain b root disk (ps ++ [p]) q

/-- Whether a root attaches a file that it does not import itself. -/
def AttachedFirst (b : Build σ) (root : Root) (p : Path) : Prop :=
  p.isPathOf (b.rootAttachments root) = true ∧ p.isPathOf (b.rootImports root) = false

instance (b : Build σ) (root : Root) (p : Path) : Decidable (b.AttachedFirst root p) :=
  inferInstanceAs (Decidable (_ ∧ _))

variable {b : Build σ} {root : Root} {disk : σ} {registry : Registry} {done : List Resource} {t : Traversal σ}

/-! ## Where references lead -/

theorem exists_normalize_of_resource? {roots : Roots} {origin : Path} {referent : Option Path} {kind : ResourceKind}
    {written reference : String} {r : Resource} (h : resource? roots origin referent kind written reference = some r) :
    ∃ p : Path, r.path = p.normalize := by
  unfold resource? at h
  split at h
  · rename_i target htarget
    obtain ⟨p, hp⟩ := exists_normalize_of_resolve htarget
    cases h
    exact ⟨p, hp⟩
  · cases h

theorem exists_normalize_of_attachedResource? {roots : Roots} {origin : Path} {referent : Option Path} {name : String}
    {r : Resource} (h : attachedResource? roots origin referent name = some r) : ∃ p : Path, r.path = p.normalize := by
  obtain ⟨reference, -, hreference⟩ := Option.bind_eq_some_iff.mp h
  exact exists_normalize_of_resource? hreference

/-- All references lead to normal paths. -/
theorem exists_normalize_of_mem_found {r : Resource} (h : r ∈ b.found root disk done) :
    ∃ p : Path, r.path = p.normalize := by
  simp only [found, List.mem_append, List.mem_flatMap, mem_importsOf] at h
  rcases h with (h | h) | ⟨m, -, text, -, h⟩
  · obtain ⟨source, -, hsource⟩ := List.mem_filterMap.mp h
    exact exists_normalize_of_resource? hsource
  · obtain ⟨name, -, hname⟩ := List.mem_filterMap.mp h
    exact exists_normalize_of_attachedResource? hname
  · obtain ⟨source, -, hsource⟩ := List.mem_filterMap.mp h
    exact exists_normalize_of_resource? hsource

/-- Normal paths that are the same have the same text. -/
theorem eq_of_same_of_normalize {p q : Path} (hp : ∃ x : Path, p = x.normalize) (hq : ∃ x : Path, q = x.normalize)
    (h : p.same q = true) : p = q := by
  obtain ⟨x, rfl⟩ := hp
  obtain ⟨y, rfl⟩ := hq
  exact Path.normalize_eq_of_same h

/-- References to the same path are to the same text of it. -/
theorem path_eq_of_same {r x : Resource} (hr : r ∈ b.found root disk done) (hx : x ∈ b.found root disk done)
    (h : r.path.same x.path = true) : r.path = x.path :=
  eq_of_same_of_normalize (exists_normalize_of_mem_found hr) (exists_normalize_of_mem_found hx) h

/-! ## First references -/

/-- No path that has been seen is among those of what is kept. -/
theorem isAmong_of_mem_firstSeen {seen : List Path} {rs : List Resource} {r : Resource} (h : r ∈ firstSeen seen rs) :
    r.path.isAmong seen = false := by
  obtain ⟨before, after, hrs⟩ := List.append_of_mem h
  have hpath := isAmong_of_firstSeen_eq hrs
  rw [isAmong_append, Bool.or_eq_false_iff] at hpath
  exact hpath.1

/-- The first reference to a path is an import unless the root attaches the file first. -/
theorem isImport_iff_of_mem_firstSeen {seen : List Path} {r : Resource}
    (h : r ∈ firstSeen seen (b.found root disk done)) : r.isImport = true ↔ ¬ b.AttachedFirst root r.path := by
  unfold found at h
  rw [firstSeen_append, firstSeen_append, List.append_assoc] at h
  rcases List.mem_append.mp h with h | h
  · -- the root imports it
    have himport : r ∈ b.rootImports root := mem_of_mem_firstSeen h
    refine iff_of_true (isImport_of_mem_rootImports himport) fun ⟨_, hnot⟩ => ?_
    rw [isPathOf_iff.mpr ⟨r, himport, Path.same_refl _⟩] at hnot
    cases hnot
  · rcases List.mem_append.mp h with h | h
    · -- the root attaches it and has not imported it
      have hattached : r ∈ b.rootAttachments root := mem_of_mem_firstSeen h
      have hseen := isAmong_of_mem_firstSeen h
      rw [isAmong_append, Bool.or_eq_false_iff, ← isPathOf_eq_isAmong] at hseen
      have hfirst : b.AttachedFirst root r.path := ⟨isPathOf_iff.mpr ⟨r, hattached, Path.same_refl _⟩, hseen.2⟩
      rw [isImport_of_mem_rootAttachments hattached]
      exact iff_of_false Bool.false_ne_true fun hnot => hnot hfirst
    · -- a module imports it and the root has no reference to it
      obtain ⟨m, -, hm⟩ := List.mem_flatMap.mp (mem_of_mem_firstSeen h)
      have hseen := isAmong_of_mem_firstSeen h
      rw [List.map_append, isAmong_append, isAmong_append, Bool.or_eq_false_iff, Bool.or_eq_false_iff,
        ← isPathOf_eq_isAmong, ← isPathOf_eq_isAmong] at hseen
      refine iff_of_true (isImport_of_mem_importsOf hm) fun ⟨hattached, _⟩ => ?_
      rw [hseen.2.2] at hattached
      cases hattached

/-- When nothing waits, every path that was found is that of something done. -/
theorem Progress.exists_done (h : Progress b root disk registry done t) (ht : t.pending = []) {r : Resource}
    (hr : r ∈ b.found root disk done) (hroot : r.path.isAmong (b.rootPath root).toList = false) :
    ∃ x ∈ done, x.path = r.path ∧ (x.isImport = true ↔ ¬ b.AttachedFirst root r.path) := by
  obtain ⟨x, hx, hsame⟩ := exists_mem_firstSeen hr hroot
  have hpath : r.path = x.path := path_eq_of_same hr (mem_of_mem_firstSeen hx) hsame
  have hkind := isImport_iff_of_mem_firstSeen hx
  rw [h.firstSeen_found ht] at hx
  exact ⟨x, hx, hpath.symm, hpath ▸ hkind⟩

/-! ## Along a chain -/

/-- What a chain of imports leads to has been visited, if all on the way has been read. -/
theorem Progress.exists_done_of_importChain (h : Progress b root disk registry done t) (ht : t.pending = [])
    {ps : List Path} {p : Path} (hchain : b.ImportChain root disk ps p)
    (hroot : ∀ q ∈ ps ++ [p], q.isAmong (b.rootPath root).toList = false)
    (hfirst : ∀ q ∈ ps, ¬ b.AttachedFirst root q) :
    ∃ x ∈ done, x.path = p ∧ (x.isImport = true ↔ ¬ b.AttachedFirst root p) := by
  induction hchain with
  | root hp =>
    obtain ⟨r, hr, rfl⟩ := List.mem_map.mp hp
    have hfound : r ∈ b.found root disk done := List.mem_append_left _ (List.mem_append_left _ hr)
    exact h.exists_done ht hfound (hroot _ (by simp))
  | @next ps p q text hchain hread hq ih =>
    obtain ⟨r, hr, rfl⟩ := List.mem_map.mp hq
    -- the module before it is an import, so it has been read
    obtain ⟨m, hm, rfl, hkind⟩ := ih (fun q hq => hroot q (List.mem_append_left _ hq))
      (fun q hq => hfirst q (List.mem_append_left _ hq))
    have himport : m.isImport = true := hkind.mpr (hfirst _ (by simp))
    have htext : b.textOf? disk m = some text := by
      rw [textOf?, himport, hread]
      rfl
    have hfound : r ∈ b.found root disk done :=
      List.mem_append_right _ (List.mem_flatMap.mpr ⟨m, hm, mem_importsOf.mpr ⟨text, htext, hr⟩⟩)
    exact h.exists_done ht hfound (hroot _ (by simp))

/-! ## At its end -/

/-- A file that can be read is there, for an import as for an attachment of a regular file. -/
theorem isThere_of_isOk {r : Resource} (hread : (b.files.readText r.path disk).isOk = true)
    (hfile : r.isImport = false → b.files.isFile r.path disk = true) : b.isThere disk r = true := by
  unfold isThere textOf?
  cases himport : r.isImport with
  | true =>
    cases htext : b.files.readText r.path disk with
    | ok text => rfl
    | error reason =>
      rw [htext] at hread
      cases hread
  | false => exact hfile himport

/-- What has been visited and is there is accepted in the end. -/
theorem Progress.mem_accepted_settled (h : Progress b root disk registry done t) {r : Resource} (hr : r ∈ done)
    (hthere : b.isThere disk r = true) : r ∈ (b.settleAttachments t).accepted := by
  obtain ⟨rs, -, hsettle⟩ := b.exists_settleAttachments t
  rw [hsettle, h.accepted]
  exact List.mem_append_left _ (List.mem_filter.mpr ⟨hr, hthere⟩)

/-- What is accepted is a resource of the graph or an imported document. -/
theorem mem_resources_or_isDocument {r : Resource} (hr : r ∈ t.accepted) :
    r ∈ (b.graph t).resources ∨ r.isImport = true ∧ b.config.isDocument r.path = true := by
  cases hdocument : r.isImport && b.config.isDocument r.path with
  | true => exact Or.inr (Bool.and_eq_true_iff.mp hdocument)
  | false => exact Or.inl (List.mem_filter.mpr ⟨hr, by rw [hdocument]; rfl⟩)

end Build

namespace Builder

variable {b : Builder σ} {root : Root} {s s' : BuildState σ} {fuel : Nat} {g : Graph}

/-- What a chain of imports from the root leads to is accepted: it is a resource, or a document that was gone through.
The chain does not go on from a file that the root attaches first, and such a file at its end is a regular one. -/
theorem accepted_of_importChain (hb : b.compiler = none) (h : b.build fuel root s = some (.ok g, s'))
    {ps : List Path} {p : Path} (hchain : (b.buildOf root s.builds).ImportChain root s.disk ps p)
    (hread : (b.files.readText p s.disk).isOk = true)
    (hroot : ∀ q ∈ ps ++ [p], q.isAmong ((b.buildOf root s.builds).rootPath root).toList = false)
    (hfirst : ∀ q ∈ ps, ¬ (b.buildOf root s.builds).AttachedFirst root q)
    (hfile : (b.buildOf root s.builds).AttachedFirst root p → b.files.isFile p s.disk = true) :
    ∃ t, b.traversal? fuel root s = some t ∧ g = (b.buildOf root s.builds).graph t ∧
      ∃ r ∈ t.accepted, r.path = p ∧ (r.isImport = true ↔ ¬ (b.buildOf root s.builds).AttachedFirst root p) ∧
        (r ∈ g.resources ∨ r.isImport = true ∧ b.config.isDocument p = true) := by
  obtain ⟨t, u, hrun, rfl, ht, rfl, -⟩ := exists_traversal h
  refine ⟨_, ht, rfl, ?_⟩
  have hends := (Build.Progress.seed (b.buildOf root s.builds) root s.disk s.registry).run hb fuel
  rw [hrun] at hends
  obtain ⟨done, hprogress, hpending⟩ := hends
  obtain ⟨r, hr, rfl, hkind⟩ := hprogress.exists_done_of_importChain hpending hchain hroot hfirst
  have hthere : (b.buildOf root s.builds).isThere s.disk r = true := by
    refine Build.isThere_of_isOk hread fun himport => hfile ?_
    by_contra hnot
    rw [hkind.mpr hnot] at himport
    cases himport
  have haccepted := hprogress.mem_accepted_settled hr hthere
  exact ⟨r, haccepted, rfl, hkind, Build.mem_resources_or_isDocument haccepted⟩

end Builder

/-! ## Attachments that are imported -/

namespace AttachedAgain

/-- Three modules in a row. -/
def disk : Disk := .ofTexts [(["a.js"], "import './b.js'"), (["b.js"], "import './c.js'"), (["c.js"], "")]

/-- A root that imports the first module and attaches a file. -/
def root (attached : String) : Root := .script ("import './a.js'\nFileAttachment('" ++ attached ++ "')") ⟨"/"⟩

/-- A module is accepted at the end of a chain that does not go through an attachment. -/
theorem accepted_of_attached_last : ∃ g s' t,
    Builder.onDisk.build 3 (root "c.js") ⟨disk, .empty, 0⟩ = some (.ok g, s') ∧
    Builder.onDisk.traversal? 3 (root "c.js") ⟨disk, .empty, 0⟩ = some t ∧
    (⟨"/c.js"⟩ : Path) ∈ t.accepted.map Resource.path := by
  obtain ⟨g, s', hbuild, -⟩ := Outcome.exists_of_paths?
    (show (Builder.onDisk.build 3 (root "c.js") ⟨disk, .empty, 0⟩).paths? = some [⟨"/a.js"⟩, ⟨"/c.js"⟩, ⟨"/b.js"⟩] by
      decide +kernel)
  have hchain : (Builder.onDisk.buildOf (root "c.js") 0).ImportChain (root "c.js") disk
      [⟨"/a.js"⟩, ⟨"/b.js"⟩] ⟨"/c.js"⟩ :=
    .next (.next (.root (by decide +kernel))
      (show Disk.fileSystem.readText ⟨"/a.js"⟩ disk = .ok "import './b.js'" by decide +kernel) (by decide +kernel))
      (show Disk.fileSystem.readText ⟨"/b.js"⟩ disk = .ok "import './c.js'" by decide +kernel) (by decide +kernel)
  obtain ⟨t, ht, -, r, hr, hpath, -⟩ := Builder.accepted_of_importChain rfl hbuild hchain (by decide +kernel)
    (by decide +kernel) (by decide +kernel) (by decide +kernel)
  exact ⟨g, s', t, hbuild, ht, hpath ▸ List.mem_map_of_mem hr⟩

/-- A module is lost behind one that the root attaches and does not import, and it is no document. -/
theorem not_accepted_of_attachedFirst : ∃ g s',
    Builder.onDisk.build 3 (root "b.js") ⟨disk, .empty, 0⟩ = some (.ok g, s') ∧
    (Builder.onDisk.buildOf (root "b.js") 0).ImportChain (root "b.js") disk [⟨"/a.js"⟩, ⟨"/b.js"⟩] ⟨"/c.js"⟩ ∧
    (∀ p ∈ [(⟨"/a.js"⟩ : Path), ⟨"/b.js"⟩, ⟨"/c.js"⟩], (Disk.fileSystem.readText p disk).isOk = true) ∧
    (Builder.onDisk.buildOf (root "b.js") 0).rootPath (root "b.js") = none ∧
    (⟨"/c.js"⟩ : Path) ∉ g.resources.map Resource.path ∧ Builder.onDisk.config.isDocument ⟨"/c.js"⟩ = false := by
  obtain ⟨g, s', hbuild, hpaths⟩ := Outcome.exists_of_paths?
    (show (Builder.onDisk.build 3 (root "b.js") ⟨disk, .empty, 0⟩).paths? = some [⟨"/a.js"⟩, ⟨"/b.js"⟩] by
      decide +kernel)
  refine ⟨g, s', hbuild, ?_, by decide +kernel, rfl, ?_, by decide +kernel⟩
  · exact .next (.next (.root (by decide +kernel))
      (show Disk.fileSystem.readText ⟨"/a.js"⟩ disk = .ok "import './b.js'" by decide +kernel) (by decide +kernel))
      (show Disk.fileSystem.readText ⟨"/b.js"⟩ disk = .ok "import './c.js'" by decide +kernel) (by decide +kernel)
  · rw [hpaths]
    decide

end AttachedAgain

end CellGraph
