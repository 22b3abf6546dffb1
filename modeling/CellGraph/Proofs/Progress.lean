import CellGraph.Proofs.Visit

/-!
# How far a traversal has come

Without a compiler a traversal is determined by the list `done` of the resources that it has visited: `Progress` says
what it has visited, accepted, noted and found amiss, and that what waits is the rest of the first references that are
found by reading `done`. The seed has visited nothing (`Progress.seed`), a visit takes the next resource to `done`
(`Progress.step`) unless it lacks a dialect (`Progress.step_of_lacksDialect`), and a run goes on with that until it ends
(`Progress.run`). When nothing waits, what was found is the last round of `discovered`
(`Progress.exhausted`), and what is left of the attachments makes the graph of `reading` (`Progress.graph_eq`).
-/

namespace CellGraph.Build

variable {σ : Type} {b : Build σ} {root : Root} {disk : σ} {registry : Registry}

/-- The references that are found by reading the files of some resources. -/
def found (b : Build σ) (root : Root) (disk : σ) (done : List Resource) : List Resource :=
  b.rootImports root ++ b.rootAttachments root ++ done.flatMap (b.importsOf disk)

/-- The state of a traversal without a compiler that has visited the resources `done`. -/
structure Progress (b : Build σ) (root : Root) (disk : σ) (registry : Registry) (done : List Resource)
    (t : Traversal σ) : Prop where
  disk_eq : t.disk = disk
  registry_eq : t.registry = registry
  compiledFiles_eq : t.compiledFiles = []
  waits : firstSeen (b.rootPath root).toList (b.found root disk done) = done ++ t.pending
  visited : t.visited = (b.rootPath root).toList ++ done.map Resource.path
  accepted : t.accepted = done.filter (b.isThere disk)
  noted : t.attachedBy = done.flatMap (b.notesOf disk)
  diagnostics : t.diagnostics = (b.readRoot root).2 ++ done.flatMap (b.diagnosticsOf disk)
  dialects : ∀ r ∈ done, b.lacksDialect disk r = false
  /-- No file has been read before the round in which its reference is found. -/
  early : b.found root disk done <+: b.discovered root disk (b.rootPath root).toList done.length

theorem found_append (done : List Resource) (r : Resource) :
    b.found root disk (done ++ [r]) = b.found root disk done ++ b.importsOf disk r := by
  simp [found]

/-! ## Known paths -/

theorem isAmong_mono {p : Path} {ps qs : List Path} (h : ps ⊆ qs) (hp : p.isAmong ps = true) :
    p.isAmong qs = true := by
  obtain ⟨q, hq, hsame⟩ := isAmong_iff.mp hp
  exact isAmong_iff.mpr ⟨q, h hq, hsame⟩

/-- What a traversal knows is what its references lead to. -/
theorem Progress.isAmong_knownPaths {done : List Resource} {t : Traversal σ}
    (h : Progress b root disk registry done t) (p : Path) : p.isAmong t.knownPaths
      = p.isAmong ((b.rootPath root).toList ++ (b.found root disk done).map Resource.path) := by
  have haccepted : p.isAmong ((done.filter (b.isThere disk)).map Resource.path) = true →
      p.isAmong (done.map Resource.path) = true :=
    isAmong_mono (List.map_subset _ List.filter_sublist.subset)
  rw [← isAmong_firstSeen, h.waits, Traversal.knownPaths, h.visited, h.accepted, Bool.eq_iff_iff]
  simp only [isAmong_append, List.map_append, Bool.or_eq_true]
  constructor
  · rintro ((hroot | hdone) | hpending | hacc)
    · exact Or.inl hroot
    · exact Or.inr (Or.inl hdone)
    · exact Or.inr (Or.inr hpending)
    · exact Or.inr (Or.inl (haccepted hacc))
  · rintro (hroot | hdone | hpending)
    · exact Or.inl (Or.inl hroot)
    · exact Or.inl (Or.inr hdone)
    · exact Or.inr (Or.inl hpending)

/-! ## The seed -/

/-- The traversal that a root starts. -/
theorem seed_eq (b : Build σ) (root : Root) (disk : σ) (registry : Registry) : b.seed root disk registry =
    { Traversal.start disk registry (b.rootPath root) with
      pending := firstSeen (b.rootPath root).toList (b.rootImports root ++ b.rootAttachments root)
      diagnostics := (b.readRoot root).2 } := by
  unfold seed readSources enqueueAttachments enqueueImports
  simp only [Traversal.foldl_enqueue, firstSeen_append]
  simp only [Traversal.start, Traversal.knownPaths, List.nil_append, List.append_nil, List.map_nil]
  have hseen := firstSeen_congr (isAmong_firstSeen · (b.rootPath root).toList (b.rootImports root))
  exact congrArg (fun attached => ({ Traversal.start disk registry (b.rootPath root) with
    pending := firstSeen (b.rootPath root).toList (b.rootImports root) ++ attached
    diagnostics := (b.readRoot root).2 } : Traversal σ)) (hseen (b.rootAttachments root))

theorem Progress.seed (b : Build σ) (root : Root) (disk : σ) (registry : Registry) :
    Progress b root disk registry [] (b.seed root disk registry) := by
  rw [seed_eq]
  exact {
    disk_eq := rfl
    registry_eq := rfl
    compiledFiles_eq := rfl
    waits := by simp [found]
    visited := by simp [Traversal.start]
    accepted := rfl
    noted := rfl
    diagnostics := by simp
    dialects := by simp
    early := by simp [found, discovered] }

/-! ## One visit -/

section Step

variable {done pending : List Resource} {t : Traversal σ} {r : Resource}

/-- What waits has not been visited. -/
theorem Progress.not_visited (h : Progress b root disk registry done t) (ht : t.pending = r :: pending) :
    r.path.isAmong t.visited = false := by
  rw [h.visited]
  exact isAmong_of_firstSeen_eq (ht ▸ h.waits)

theorem Progress.step_of_lacksDialect (hb : b.compiler = none) (h : Progress b root disk registry done t)
    (ht : t.pending = r :: pending) (hr : b.lacksDialect disk r = true) :
    ∃ u, b.step r { t with pending } = (some (.unknownDialect r.path), u) ∧ u.disk = disk ∧ u.registry = registry := by
  obtain rfl := h.disk_eq
  refine ⟨({ t with pending } : Traversal σ).visit r.path, ?_, rfl, h.registry_eq⟩
  rw [step_eq hb (t := { t with pending }) (h.not_visited ht), hr]
  rfl

/-- A visit takes the next resource to those that are done. -/
theorem Progress.step (hb : b.compiler = none) (h : Progress b root disk registry done t)
    (ht : t.pending = r :: pending) (hr : b.lacksDialect disk r = false) :
    ∃ u, b.step r { t with pending } = (none, u) ∧ Progress b root disk registry (done ++ [r]) u := by
  obtain rfl := h.disk_eq
  have hknown : ∀ p : Path, p.isAmong (({ t with pending } : Traversal σ).knownPaths ++ [r.path])
      = p.isAmong ((b.rootPath root).toList ++ (b.found root t.disk done).map Resource.path) := by
    intro p
    rw [t.isAmong_knownPaths_of_pending ht, h.isAmong_knownPaths]
  rw [step_eq hb (t := { t with pending }) (h.not_visited ht), hr, firstSeen_congr hknown]
  refine ⟨_, rfl, ?_⟩
  have hwaits : firstSeen (b.rootPath root).toList (b.found root t.disk done) = (done ++ [r]) ++ pending := by
    rw [h.waits, ht, List.append_cons]
  exact {
    disk_eq := h.disk_eq
    registry_eq := h.registry_eq
    compiledFiles_eq := h.compiledFiles_eq
    waits := by rw [found_append, firstSeen_append, hwaits, List.append_assoc]
    visited := by simp [h.visited]
    accepted := by simp [h.accepted]
    noted := by simp [h.noted]
    diagnostics := by simp [h.diagnostics]
    dialects := by
      intro x hx
      rcases List.mem_append.mp hx with hx | hx
      · exact h.dialects x hx
      · rwa [List.mem_singleton.mp hx]
    early := by
      -- `done` and `r` are among the first references of this round, so the next one reads them
      have hfirst : done ++ [r] <+: firstSeen (b.rootPath root).toList
          (b.discovered root t.disk (b.rootPath root).toList done.length) :=
        (hwaits ▸ List.prefix_append _ _).trans (firstSeen_isPrefix h.early)
      obtain ⟨rest, hrest⟩ := hfirst
      rw [List.length_append, List.length_singleton, discovered, ← hrest, List.flatMap_append, ← List.append_assoc]
      exact List.prefix_append _ _ }

/-- What was visited by a run that goes on is done. -/
theorem Progress.of_visits {u : Traversal σ} (hb : b.compiler = none) (h : Progress b root disk registry done t)
    (hvisits : b.Visits r t u) : Progress b root disk registry (done ++ [r]) u := by
  obtain ⟨pending, ht, hstep⟩ := hvisits
  cases hr : b.lacksDialect disk r with
  | true =>
    obtain ⟨v, hv, -⟩ := h.step_of_lacksDialect hb ht hr
    rw [hv] at hstep
    cases hstep
  | false =>
    obtain ⟨v, hv, hprogress⟩ := h.step hb ht hr
    rw [hv] at hstep
    cases hstep
    exact hprogress

/-- What is not read leads to nothing, so the rest goes on waiting. -/
theorem Progress.pending_eq_tail {u : Traversal σ} (h : Progress b root disk registry done t)
    (ht : t.pending = r :: pending) (hu : Progress b root disk registry (done ++ [r]) u)
    (htext : b.textOf? disk r = none) : u.pending = t.pending.tail := by
  have hwaits := hu.waits
  rw [found_append, importsOf, htext, Option.map_none, Option.getD_none, List.append_nil, h.waits, ht,
    List.append_cons] at hwaits
  rw [ht, List.tail_cons]
  exact (List.append_cancel_left hwaits).symm

end Step

/-! ## Runs -/

/-- How a run can end: without fuel after many visits, well when nothing waits, or at a resource without a dialect. -/
def RunEnds (b : Build σ) (root : Root) (disk : σ) (registry : Registry) (visits : Nat) :
    Option (Option BuildError × Traversal σ) → Prop
  | none => ∃ done u, Progress b root disk registry done u ∧ done.length = visits
  | some (none, u) => ∃ done, Progress b root disk registry done u ∧ u.pending = []
  | some (some e, u) =>
    (∃ done v r pending, Progress b root disk registry done v ∧ v.pending = r :: pending ∧
      b.lacksDialect disk r = true ∧ e = .unknownDialect r.path) ∧ u.disk = disk ∧ u.registry = registry

theorem Progress.run (hb : b.compiler = none) (fuel : Nat) {done : List Resource} {t : Traversal σ}
    (h : Progress b root disk registry done t) :
    RunEnds b root disk registry (done.length + fuel) (b.run fuel t) := by
  induction fuel generalizing done t with
  | zero =>
    rw [Build.run]
    split
    · exact ⟨done, h, ‹_›⟩
    · exact ⟨done, t, h, rfl⟩
  | succ fuel ih =>
    rw [Build.run]
    cases ht : t.pending with
    | nil => exact ⟨done, h, ht⟩
    | cons r pending =>
      cases hr : b.lacksDialect disk r with
      | true =>
        obtain ⟨u, hu, hdisk, hregistry⟩ := h.step_of_lacksDialect hb ht hr
        simp only [hu]
        exact ⟨⟨done, t, r, pending, h, ht, hr, rfl⟩, hdisk, hregistry⟩
      | false =>
        obtain ⟨u, hu, hprogress⟩ := h.step hb ht hr
        have hlength : (done ++ [r]).length + fuel = done.length + (fuel + 1) := by
          rw [List.length_append, List.length_singleton]
          omega
        simp only [hu]
        exact hlength ▸ ih hprogress

/-! ## The end -/

section End

variable {done : List Resource} {t : Traversal σ}

/-- When nothing waits, those that are done are the first references. -/
theorem Progress.firstSeen_found (h : Progress b root disk registry done t) (ht : t.pending = []) :
    firstSeen (b.rootPath root).toList (b.found root disk done) = done := by
  rw [h.waits, ht, List.append_nil]

/-- When nothing waits, no round finds more than what has been found. -/
theorem Progress.discovered_isPrefix_found (h : Progress b root disk registry done t) (ht : t.pending = []) (n : Nat) :
    b.discovered root disk (b.rootPath root).toList n <+: b.found root disk done := by
  induction n with
  | zero => exact List.prefix_append _ _
  | succ n ih =>
    refine (List.prefix_append_right_inj _).mpr ?_
    have hnext : _ <+: (firstSeen (b.rootPath root).toList (b.found root disk done)).flatMap (b.importsOf disk) :=
      flatMap_firstSeen_isPrefix ih _
    rwa [h.firstSeen_found ht] at hnext

/-- When nothing waits, there have been enough visits for as many rounds. -/
theorem Progress.discovered_eq_found (h : Progress b root disk registry done t) (ht : t.pending = []) :
    b.discovered root disk (b.rootPath root).toList done.length = b.found root disk done :=
  (h.discovered_isPrefix_found ht _).eq_of_length_le h.early.length_le

/-- All first references to be kept: those that are done, and then the attachments of the modules among them. -/
theorem Progress.kept_eq (h : Progress b root disk registry done t) (ht : t.pending = []) :
    b.kept root disk (b.rootPath root).toList done.length =
      done ++ firstSeen t.knownPaths (done.flatMap (b.attachmentsOf disk)) := by
  unfold kept stream
  rw [h.discovered_eq_found ht, firstSeen_append, h.firstSeen_found ht, ← firstSeen_congr h.isAmong_knownPaths]

end End

/-! ## Attachments of modules -/

/-- What is noted is noted of an import that has been accepted. -/
theorem Progress.accepted_of_noted {done : List Resource} {t : Traversal σ}
    (h : Progress b root disk registry done t) {m : Path × List String} (hm : m ∈ t.attachedBy) :
    ∃ r ∈ t.accepted, m.1.same r.path = true ∧ r.isImport = true := by
  rw [h.noted] at hm
  obtain ⟨r, hr, hm⟩ := List.mem_flatMap.mp hm
  unfold notesOf at hm
  cases htext : b.textOf? disk r with
  | none => simp [htext] at hm
  | some text =>
    have himport : r.isImport = true := isImport_of_textOf? htext
    have hpath : m.1 = r.path := fst_of_mem_noteOf (show m ∈ b.noteOf r.path text by simpa [htext] using hm)
    refine ⟨r, ?_, hpath ▸ Path.same_refl _, himport⟩
    rw [h.accepted]
    exact List.mem_filter.mpr ⟨hr, by simp [isThere, himport, htext]⟩

/-- What is amiss with attachments is that some are not there. -/
theorem flatMap_diagnosticsOf {rs : List Resource} (h : ∀ r ∈ rs, r.isImport = false) :
    rs.flatMap (b.diagnosticsOf disk) = (rs.filter fun r => !b.files.isFile r.path disk).map fun r =>
      .unresolved r "attachment not found" := by
  induction rs with
  | nil => rfl
  | cons r rs ih =>
    rw [List.flatMap_cons, ih fun r hr => h r (List.mem_cons_of_mem _ hr), List.filter_cons]
    have hr : r.isImport = false := h r List.mem_cons_self
    cases hfile : b.files.isFile r.path disk <;> simp [diagnosticsOf, hr, hfile]

/-- What a traversal at its end becomes when the attachments of modules have been looked up. -/
theorem Progress.graph_eq {done : List Resource} {t : Traversal σ} (h : Progress b root disk registry done t)
    (ht : t.pending = []) : b.graph (b.settleAttachments t) =
      b.reading root disk (b.rootPath root).toList done.length := by
  have hattached : ∀ r ∈ firstSeen t.knownPaths (done.flatMap (b.attachmentsOf disk)), r.isImport = false := by
    intro r hr
    obtain ⟨m, -, hm⟩ := List.mem_flatMap.mp (mem_of_mem_firstSeen hr)
    exact isImport_of_mem_attachmentsOf hm
  have hnames : t.attachedBy.flatMap b.attachedResources = done.flatMap (b.attachmentsOf disk) := by
    rw [h.noted, List.flatMap_assoc]
    simp only [flatMap_notesOf]
  rw [settleAttachments_eq fun m hm => h.accepted_of_noted hm, hnames]
  unfold graph reading
  rw [h.kept_eq ht, List.filter_append, List.flatMap_append, flatMap_diagnosticsOf hattached, h.accepted,
    h.diagnostics, h.disk_eq, h.compiledFiles_eq, List.filter_append, List.filter_filter, List.filter_filter,
    List.append_assoc]
  congr 2
  · exact List.filter_congr fun r _ => Bool.and_comm _ _
  · refine List.filter_congr fun r hr => ?_
    simp [isThere, hattached r hr]

end CellGraph.Build
