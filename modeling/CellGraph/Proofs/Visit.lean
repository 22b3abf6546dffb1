import CellGraph.Proofs.Run

/-!
# Visiting resources

What one visit does to a traversal, as an equation for each operation: `expand_eq` for the references of a module that
has been read, `step_eq` for a whole visit where there is no compiler. Without a compiler the files stay as they are, so
all that a visit adds to the traversal depends on the resource and the files alone. With one, a visit goes in one of the
ways of `Visited` (`visited_of_step`). What is added for the attachments of modules in the end is an equation again
(`settleAttachments_eq`).
-/

namespace CellGraph.Build

variable {σ : Type} (b : Build σ)

/-- What a traversal notes of a script module that attaches something. -/
def noteOf (p : Path) (text : String) : List (Path × List String) :=
  if b.config.dialect? p = some .script ∧ (b.readFile p text).1.attachments ≠ [] then
    [(p, (b.readFile p text).1.attachments)]
  else []

/-- What the attachments of a noted module lead to. -/
def attachedResources (m : Path × List String) : List Resource :=
  m.2.filterMap (attachedResource? b.roots m.1.directory (some m.1))

/-- What is noted of a module leads to what it attaches. -/
theorem flatMap_noteOf (p : Path) (text : String) :
    (b.noteOf p text).flatMap b.attachedResources = b.attachedBy p text := by
  unfold noteOf attachedBy attachedResources
  by_cases hscript : b.config.dialect? p = some .script
  · cases hnames : (b.readFile p text).1.attachments with
    | nil => simp [hscript]
    | cons name names => simp [hscript]
  · simp [hscript]

theorem readFile_of_dialect {p : Path} {dialect : Dialect} (h : b.config.dialect? p = some dialect) (text : String) :
    b.readFile p text =
      readCells (b.fileCells dialect p text).1 b.config.attachmentFunction (some p) (b.fileCells dialect p text).2 := by
  unfold readFile
  rw [h]

/-- What following the references of a module does. -/
theorem expand_eq {r : Resource} {dialect : Dialect} (h : b.config.dialect? r.path = some dialect) (text : String)
    (t : Traversal σ) : b.expand r dialect text t = { t with
      pending := t.pending ++ firstSeen t.knownPaths (b.importedBy r.path text)
      attachedBy := t.attachedBy ++ b.noteOf r.path text
      diagnostics := t.diagnostics ++ (b.readFile r.path text).2 } := by
  unfold expand readSources enqueueImports noteOf importedBy
  simp only [Traversal.foldl_enqueue, b.readFile_of_dialect h, h, Option.some.injEq]
  split
  · rfl
  · simp [Traversal.knownPaths]

/-- What keeping a module that has been read does, with the files that were compiled for it and its references. -/
theorem expand_foldl_adopt {r : Resource} {dialect : Dialect} (h : b.config.dialect? r.path = some dialect)
    (text : String) (siblings : List Resource) (t : Traversal σ) :
    b.expand r dialect text (siblings.foldl Traversal.adopt ((t.visit r.path).accept r)) = { t with
      pending := t.pending ++
        firstSeen (t.knownPaths ++ [r.path] ++ siblings.map Resource.path) (b.importedBy r.path text)
      visited := t.visited ++ r.path :: (firstSeen (t.knownPaths ++ [r.path]) siblings).map Resource.path
      accepted := t.accepted ++ r :: firstSeen (t.knownPaths ++ [r.path]) siblings
      attachedBy := t.attachedBy ++ b.noteOf r.path text
      diagnostics := t.diagnostics ++ (b.readFile r.path text).2 } := by
  have hadopted : ∀ p : Path, p.isAmong (siblings.foldl Traversal.adopt ((t.visit r.path).accept r)).knownPaths
      = p.isAmong (t.knownPaths ++ [r.path] ++ siblings.map Resource.path) := by
    intro p
    rw [Traversal.isAmong_knownPaths_foldl_adopt, isAmong_append, t.isAmong_knownPaths_accept, ← isAmong_append]
  rw [b.expand_eq h, firstSeen_congr hadopted, Traversal.foldl_adopt, firstSeen_congr (t.isAmong_knownPaths_accept r)]
  simp [Traversal.visit, Traversal.accept]

section Kinds

variable {b} {r : Resource} {t : Traversal σ}

theorem isAttachment_eq_not_isImport (r : Resource) : r.isAttachment = !r.isImport := by
  unfold Resource.isAttachment Resource.isImport
  cases r.kind <;> rfl

/-- A path that has been visited is passed over. -/
theorem step_of_visited (h : r.path.isAmong t.visited = true) : b.step r t = (none, t) := by simp [step, h]

theorem step_of_attachment (h : r.path.isAmong t.visited = false) (hkind : r.isImport = false) :
    b.step r t = (none, b.visitAttachment r (t.visit r.path)) := by
  simp [step, h, isAttachment_eq_not_isImport, hkind]

theorem step_of_import (h : r.path.isAmong t.visited = false) (hkind : r.isImport = true) :
    b.step r t = b.visitImport r (t.visit r.path) := by
  simp [step, h, isAttachment_eq_not_isImport, hkind]

end Kinds

/-! ## Without a compiler -/

section Uncompiled

/-- What a traversal notes of an import. -/
def notesOf (disk : σ) (r : Resource) : List (Path × List String) :=
  ((b.textOf? disk r).map (b.noteOf r.path)).getD []

theorem flatMap_notesOf (disk : σ) (r : Resource) :
    (b.notesOf disk r).flatMap b.attachedResources = b.attachmentsOf disk r := by
  unfold notesOf attachmentsOf
  cases b.textOf? disk r with
  | none => rfl
  | some text => exact b.flatMap_noteOf r.path text

variable {b} (hb : b.compiler = none)
include hb

/-- Without a compiler a file can be read or is missing. -/
theorem obtainSource_eq (r : Resource) (t : Traversal σ) : b.obtainSource r t =
    match b.files.readText r.path t.disk with
    | .ok text => (.source text [], t)
    | .error reason => (.missing reason, t) := by
  unfold obtainSource recover
  rw [hb]
  cases b.files.readText r.path t.disk with
  | ok text => rfl
  | error reason => simp

/-- What a visit does without a compiler. -/
theorem step_eq {r : Resource} {t : Traversal σ} (hr : r.path.isAmong t.visited = false) : b.step r t =
    if b.lacksDialect t.disk r then (some (.unknownDialect r.path), t.visit r.path)
    else (none, { t with
      pending := t.pending ++ firstSeen (t.knownPaths ++ [r.path]) (b.importsOf t.disk r)
      visited := t.visited ++ [r.path]
      accepted := t.accepted ++ [r].filter (b.isThere t.disk)
      attachedBy := t.attachedBy ++ b.notesOf t.disk r
      diagnostics := t.diagnostics ++ b.diagnosticsOf t.disk r }) := by
  cases hkind : r.isImport with
  | false =>
    have htext : b.textOf? t.disk r = none := by simp [textOf?, hkind]
    rw [step_of_attachment hr hkind, visitAttachment_eq]
    cases hfile : b.files.isFile r.path t.disk <;>
      simp [lacksDialect, importsOf, notesOf, isThere, diagnosticsOf, htext, hkind, hfile, firstSeen, Traversal.visit]
  | true =>
    have hdisk : (t.visit r.path).disk = t.disk := rfl
    rw [step_of_import hr hkind, visitImport, obtainSource_eq hb, hdisk]
    cases hread : b.files.readText r.path t.disk with
    | error reason =>
      have htext : b.textOf? t.disk r = none := by simp [textOf?, hkind, hread, Except.toOption]
      simp [lacksDialect, importsOf, notesOf, isThere, diagnosticsOf, htext, hkind, hread, firstSeen, Traversal.visit,
        Traversal.noteMissing]
    | ok text =>
      have htext : b.textOf? t.disk r = some text := by simp [textOf?, hkind, hread, Except.toOption]
      cases hdialect : b.config.dialect? r.path with
      | none => simp [lacksDialect, htext, hdialect]
      | some dialect =>
        simp only [b.expand_foldl_adopt hdialect]
        simp [lacksDialect, importsOf, notesOf, isThere, diagnosticsOf, htext, hkind, hread, hdialect, firstSeen]

end Uncompiled

/-! ## With a compiler -/

section Compiled

variable {b} {r : Resource} {t u : Traversal σ}

/-- Reading a module, and compiling it for that, changes the files and what is known of compiled ones. -/
theorem exists_obtainSource (b : Build σ) (r : Resource) (t : Traversal σ) : ∃ disk registry compiledFiles,
    (b.obtainSource r t).2 = { t with disk, registry, compiledFiles } := by
  unfold obtainSource
  split
  · exact ⟨_, _, _, rfl⟩
  · split
    · split
      · exact ⟨_, _, _, rfl⟩
      · exact ⟨_, _, _, rfl⟩
      · exact ⟨_, _, _, rfl⟩
    · exact ⟨_, _, _, rfl⟩

/-- How a visit can go that does not fail the build, what it reads and what it leaves. -/
inductive Visited (b : Build σ) (r : Resource) (t : Traversal σ) : List Read → Traversal σ → Prop
  | passed (hpath : r.path.isAmong t.visited = true) : Visited b r t [] t
  | checked (hpath : r.path.isAmong t.visited = false) (hkind : r.isImport = false) :
      Visited b r t [] (b.visitAttachment r (t.visit r.path))
  | missing (hpath : r.path.isAmong t.visited = false) (hkind : r.isImport = true) (disk : σ) (registry : Registry)
      (compiledFiles : List Path) (reason : SystemError) : Visited b r t [] { t with
        disk, registry, compiledFiles
        visited := t.visited ++ [r.path]
        diagnostics := t.diagnostics ++ [.unresolved r reason.message] }
  | read (hpath : r.path.isAmong t.visited = false) (hkind : r.isImport = true) (disk : σ) (registry : Registry)
      (compiledFiles : List Path) (text : String) (siblings : List Resource) :
      Visited b r t [⟨r, text, siblings⟩] { t with
        disk, registry, compiledFiles
        pending := t.pending ++
          firstSeen (t.knownPaths ++ [r.path] ++ siblings.map Resource.path) (b.importedBy r.path text)
        visited := t.visited ++ r.path :: (firstSeen (t.knownPaths ++ [r.path]) siblings).map Resource.path
        accepted := t.accepted ++ r :: firstSeen (t.knownPaths ++ [r.path]) siblings
        attachedBy := t.attachedBy ++ b.noteOf r.path text
        diagnostics := t.diagnostics ++ (b.readFile r.path text).2 }

/-- A visit that does not fail the build goes in one of these ways. -/
theorem visited_of_step (h : b.step r t = (none, u)) : Visited b r t (b.readOf r t) u := by
  cases hpath : r.path.isAmong t.visited with
  | true =>
    rw [step_of_visited hpath] at h
    cases h
    simpa [readOf, hpath] using Visited.passed hpath
  | false =>
    cases hkind : r.isImport with
    | false =>
      rw [step_of_attachment hpath hkind] at h
      cases h
      simpa [readOf, hpath, hkind] using Visited.checked hpath hkind
    | true =>
      obtain ⟨disk, registry, compiledFiles, hframe⟩ := b.exists_obtainSource r (t.visit r.path)
      rw [step_of_import hpath hkind, visitImport] at h
      cases hread : b.obtainSource r (t.visit r.path) with
      | mk reading v =>
        rw [hread] at h hframe
        simp only at h hframe
        subst hframe
        cases reading with
        | failed e => cases h
        | missing reason =>
          have hreads : b.readOf r t = [] := by simp [readOf, hpath, hkind, hread]
          cases h
          rw [hreads]
          exact .missing hpath hkind disk registry compiledFiles reason
        | source text siblings =>
          have hreads : b.readOf r t = [⟨r, text, siblings⟩] := by simp [readOf, hpath, hkind, hread]
          cases hdialect : b.config.dialect? r.path with
          | none => simp [hdialect] at h
          | some dialect =>
            have hexpand := b.expand_foldl_adopt hdialect text siblings { t with disk, registry, compiledFiles }
            simp only [hdialect, Prod.mk.injEq, true_and] at h
            rw [hreads, h.symm.trans hexpand]
            exact .read hpath hkind disk registry compiledFiles text siblings

end Compiled

/-! ## Attachments of modules -/

section Attachments

variable {b} {t : Traversal σ}

theorem fst_of_mem_noteOf {p : Path} {text : String} {m : Path × List String} (h : m ∈ b.noteOf p text) : m.1 = p := by
  unfold noteOf at h
  split at h
  · rw [List.mem_singleton.mp h]
  · cases h

/-- Modules that are imported have their attachments looked up in turn. -/
theorem foldl_settleAttachmentsOf (ms : List (Path × List String)) {t : Traversal σ}
    (h : ∀ m ∈ ms, ∃ r ∈ t.accepted, m.1.same r.path = true ∧ r.isImport = true) :
    ms.foldl b.settleAttachmentsOf t = (ms.flatMap b.attachedResources).foldl b.settleAttachment t := by
  induction ms generalizing t with
  | nil => rfl
  | cons m ms ih =>
    have hm : (t.accepted.any fun r => m.1.same r.path && r.isImport) = true := by
      obtain ⟨r, hr, hpath, himport⟩ := h m List.mem_cons_self
      exact List.any_eq_true.mpr ⟨r, hr, by simp [hpath, himport]⟩
    have hsettle : b.settleAttachmentsOf t m = (b.attachedResources m).foldl b.settleAttachment t := by
      unfold settleAttachmentsOf
      rw [hm]
      rfl
    rw [List.foldl_cons, List.flatMap_cons, List.foldl_append, hsettle]
    refine ih fun m' hm' => ?_
    obtain ⟨r, hr, hpath, himport⟩ := h m' (List.mem_cons_of_mem _ hm')
    rw [foldl_settleAttachment]
    exact ⟨r, List.mem_append_left _ hr, hpath, himport⟩

/-- What the attachments of imported modules add to a traversal. -/
theorem settleAttachments_eq (h : ∀ m ∈ t.attachedBy, ∃ r ∈ t.accepted, m.1.same r.path = true ∧ r.isImport = true) :
    b.settleAttachments t = { t with
      visited := t.visited ++ (firstSeen t.knownPaths (t.attachedBy.flatMap b.attachedResources)).map Resource.path
      accepted := t.accepted ++ (firstSeen t.knownPaths (t.attachedBy.flatMap b.attachedResources)).filter fun r =>
        b.files.isFile r.path t.disk
      diagnostics := t.diagnostics ++
        ((firstSeen t.knownPaths (t.attachedBy.flatMap b.attachedResources)).filter fun r =>
          !b.files.isFile r.path t.disk).map fun r => .unresolved r "attachment not found" } := by
  unfold settleAttachments
  rw [foldl_settleAttachmentsOf _ h, foldl_settleAttachment]

end Attachments

end CellGraph.Build
