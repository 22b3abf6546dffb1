import CellGraph.Proofs.Reading
import CellGraph.Proofs.Visit

/-!
# Closure under imports

With a compiler, modules come into a graph in two ways: they are read in turn, or they are compiled together with a
module that is read. `Accounted` says what a traversal knows when it has read some modules: whatever they lead to is
known, and what has been visited is accounted for. Every visit keeps it (`Accounted.step`). So what a module imports is
accounted for as the module was read. Modules that were only compiled are not read, and files may be written again
after they were read: what these import is accounted for just if something else leads there
(`Builder.closed_iff_of_build`), and may be lost (`CompiledTogether.not_closed_of_compiled`).
-/

namespace CellGraph

variable {σ : Type}

/-- The path of a file that is said not to be there. -/
def Diagnostic.missing? (d : Diagnostic) : Option Path := if d.kind = .unresolvedReference then d.path else none

@[simp] theorem Diagnostic.missing?_unresolved (r : Resource) (reason : String) :
    (Diagnostic.unresolved r reason).missing? = some r.path := rfl

namespace Build

variable {b : Build σ} {root : Root} {r : Resource} {t u : Traversal σ}

/-! ## What is accounted for -/

/-- The paths that are accounted for: that of the root, those of resources, and those where there is no file. -/
def accountedPaths (b : Build σ) (root : Root) (t : Traversal σ) : List Path :=
  (b.rootPath root).toList ++ t.accepted.map Resource.path ++ t.diagnostics.filterMap Diagnostic.missing?

/-- What a module leads to when it is read, and the files that were compiled with it. -/
def foundBy (b : Build σ) (x : Read) : List Resource := x.siblings ++ b.importedBy x.resource.path x.text

/-- What the cells of a root and the modules that were read lead to. -/
def foundIn (b : Build σ) (root : Root) (reads : List Read) : List Resource :=
  b.rootImports root ++ b.rootAttachments root ++ reads.flatMap b.foundBy

/-- The state of a traversal that has read some modules. -/
structure Accounted (b : Build σ) (root : Root) (reads : List Read) (t : Traversal σ) : Prop where
  known : ∀ p : Path, p.isAmong t.knownPaths =
    p.isAmong ((b.rootPath root).toList ++ (b.foundIn root reads).map Resource.path)
  visited : ∀ p : Path, p.isAmong t.visited = p.isAmong (b.accountedPaths root t)
  accepted : ∀ r ∈ t.accepted, r.isImport = true → ∃ x ∈ reads, r = x.resource ∨ r ∈ x.siblings
  read : ∀ x ∈ reads, x.resource ∈ t.accepted ∧ x.resource.isImport = true
  noted : t.attachedBy = reads.flatMap fun x => b.noteOf x.resource.path x.text

/-- Cells that cannot be read lead to no file that is not there. -/
theorem filterMap_missing?_readCells (dialect : Dialect) (attachmentFunction : String) (referent : Option Path)
    (cells : List String) :
    (readCells dialect attachmentFunction referent cells).2.filterMap Diagnostic.missing? = [] := by
  induction cells with
  | nil => rfl
  | cons cell cells ih =>
    cases hcell : Script.references? dialect attachmentFunction cell with
    | some own => simpa [readCells, hcell] using ih
    | none => simpa [readCells, hcell, Diagnostic.missing?, Diagnostic.unparsable] using ih

theorem filterMap_missing?_readFile (p : Path) (text : String) :
    (b.readFile p text).2.filterMap Diagnostic.missing? = [] := by
  unfold readFile
  split
  · rfl
  · exact filterMap_missing?_readCells _ _ _ _

theorem Accounted.seed (b : Build σ) (root : Root) (disk : σ) (registry : Registry) :
    Accounted b root [] (b.seed root disk registry) := by
  rw [seed_eq]
  exact {
    known := by
      intro p
      rw [foundIn, List.flatMap_nil, List.append_nil, ← isAmong_firstSeen]
      simp [Traversal.knownPaths, Traversal.start]
    visited := by
      intro p
      simp [accountedPaths, Traversal.start, readRoot, filterMap_missing?_readCells]
    accepted := by simp [Traversal.start]
    read := by simp
    noted := rfl }

theorem foundIn_append (b : Build σ) (root : Root) (xs ys : List Read) :
    b.foundIn root (xs ++ ys) = b.foundIn root xs ++ ys.flatMap b.foundBy := by
  simp [foundIn]

section Step

variable {reads new : List Read} {pending : List Resource}

/-- A visit adds what it finds to what is known. -/
theorem Visited.isAmong_knownPaths (h : Visited b r { t with pending } new u) (ht : t.pending = r :: pending)
    (p : Path) : p.isAmong u.knownPaths = p.isAmong (t.knownPaths ++ (new.flatMap b.foundBy).map Resource.path) := by
  rw [isAmong_append, ← t.isAmong_knownPaths_of_pending ht]
  cases h with
  | passed hpath =>
    cases hp : p.same r.path with
    | false => simp [hp]
    | true =>
      have hpassed : p.isAmong t.visited = true := (isAmong_congr hp).trans hpath
      simp [Traversal.knownPaths, hpassed]
  | checked => simp [isAmong_knownPaths_visitAttachment]
  | missing => simp [Traversal.knownPaths, Bool.or_comm, Bool.or_left_comm]
  | read _ _ _ _ _ text siblings =>
    -- what is adopted and what is enqueued leads to the same paths as all that is found
    have hadopted := isAmong_firstSeen p (Traversal.knownPaths { t with pending } ++ [r.path]) siblings
    have hfound := isAmong_firstSeen p
      (Traversal.knownPaths { t with pending } ++ [r.path] ++ siblings.map Resource.path) (b.importedBy r.path text)
    simp only [Traversal.knownPaths, foundBy, List.map_append, List.map_cons, List.flatMap_cons, List.flatMap_nil,
      List.append_nil, isAmong_append, isAmong_cons, isAmong_nil] at hadopted hfound ⊢
    grind

/-- A visit that does not fail the build accounts for the resource. -/
theorem Accounted.step (h : Accounted b root reads t) (ht : t.pending = r :: pending)
    (hvisited : Visited b r { t with pending } new u) : Accounted b root (reads ++ new) u := by
  have hknown : ∀ p : Path, p.isAmong u.knownPaths =
      p.isAmong ((b.rootPath root).toList ++ (b.foundIn root (reads ++ new)).map Resource.path) := by
    intro p
    rw [hvisited.isAmong_knownPaths ht, foundIn_append, List.map_append, ← List.append_assoc, isAmong_append,
      isAmong_append, h.known]
  cases hvisited with
  | passed hpath =>
    rw [List.append_nil] at hknown ⊢
    exact { h with known := hknown }
  | checked _ hkind =>
    rw [List.append_nil, visitAttachment_eq] at hknown ⊢
    exact {
      known := hknown
      visited := by
        intro p
        cases hfile : b.files.isFile r.path ({ t with pending } : Traversal σ).disk <;>
          simp [accountedPaths, Traversal.visit, hfile, h.visited, Bool.or_assoc, Bool.or_comm, Bool.or_left_comm]
      accepted := by
        intro x hx himport
        rcases List.mem_append.mp hx with hx | hx
        · exact h.accepted x hx himport
        · rw [List.mem_singleton.mp (List.mem_filter.mp hx).1, hkind] at himport
          cases himport
      read := fun x hx => ⟨List.mem_append_left _ (h.read x hx).1, (h.read x hx).2⟩
      noted := h.noted }
  | missing =>
    rw [List.append_nil] at hknown ⊢
    exact {
      known := hknown
      visited := by
        intro p
        simp [accountedPaths, h.visited, Bool.or_assoc, Bool.or_comm, Bool.or_left_comm]
      accepted := h.accepted
      read := h.read
      noted := h.noted }
  | read _ hkind _ _ _ text siblings =>
    exact {
      known := hknown
      visited := by
        intro p
        simp [accountedPaths, h.visited, Bool.or_assoc, Bool.or_comm, Bool.or_left_comm, filterMap_missing?_readFile]
      accepted := by
        intro x hx himport
        rcases List.mem_append.mp hx with hx | hx
        · obtain ⟨y, hy, hyx⟩ := h.accepted x hx himport
          exact ⟨y, List.mem_append_left _ hy, hyx⟩
        · refine ⟨⟨r, text, siblings⟩, List.mem_append_right _ List.mem_cons_self, ?_⟩
          rcases List.mem_cons.mp hx with rfl | hx
          · exact Or.inl rfl
          · exact Or.inr (mem_of_mem_firstSeen hx)
      read := by
        intro x hx
        rcases List.mem_append.mp hx with hx | hx
        · exact ⟨List.mem_append_left _ (h.read x hx).1, (h.read x hx).2⟩
        · rw [List.mem_singleton.mp hx]
          exact ⟨List.mem_append_right _ List.mem_cons_self, hkind⟩
      noted := by
        rw [List.flatMap_append, ← h.noted]
        simp }

end Step

/-- A run that ends well has accounted for all that it visited. -/
theorem accounted_of_run {disk : σ} {registry : Registry} {fuel : Nat}
    (h : b.run fuel (b.seed root disk registry) = some (none, t)) :
    Accounted b root (b.readsOf fuel (b.seed root disk registry)) t ∧ t.pending = [] := by
  have hvisit : ∀ {reads : List Read} {r : Resource} {pending : List Resource} {t u : Traversal σ},
      Accounted b root reads t → t.pending = r :: pending → b.step r { t with pending } = (none, u) →
      Accounted b root (reads ++ b.readOf r { t with pending }) u :=
    fun h ht hstep => h.step ht (visited_of_step hstep)
  have hrun := run_induction hvisit (Accounted.seed b root disk registry) h
  rwa [List.nil_append] at hrun

/-! ## When nothing waits -/

/-- The paths that the references lead to which were read, and that of the root. -/
def foundPaths (b : Build σ) (root : Root) (reads : List Read) : List Path :=
  (b.rootPath root).toList ++
    (b.foundIn root reads ++ reads.flatMap fun x => b.attachedBy x.resource.path x.text).map Resource.path

/-- Resources that are kept or noted are accounted for. -/
theorem isAmong_kept_or_missing (p : Path) (f : Resource → Bool) (rs : List Resource) (reason : String) :
    (p.isAmong ((rs.filter f).map Resource.path) || p.isAmong (((rs.filter fun r => !f r).map fun r =>
      Diagnostic.unresolved r reason).filterMap Diagnostic.missing?)) = p.isAmong (rs.map Resource.path) := by
  induction rs with
  | nil => rfl
  | cons r rs ih =>
    cases hr : f r with
    | true => simp [hr, ← ih, Bool.or_assoc]
    | false => simp [hr, ← ih, Bool.or_left_comm]

/-- When nothing waits, all that is known is accounted for. -/
theorem Accounted.isAmong_accountedPaths {reads : List Read} (h : Accounted b root reads t) (ht : t.pending = [])
    (p : Path) : p.isAmong (b.accountedPaths root t) = p.isAmong t.knownPaths := by
  have hvisited := h.visited p
  simp only [accountedPaths, Traversal.knownPaths, ht, List.nil_append, isAmong_append] at hvisited ⊢
  rw [hvisited]
  cases p.isAmong (t.accepted.map Resource.path) <;> simp

/-- The modules that are noted were accepted. -/
theorem Accounted.exists_accepted_of_noted {reads : List Read} (h : Accounted b root reads t) :
    ∀ m ∈ t.attachedBy, ∃ r ∈ t.accepted, m.1.same r.path = true ∧ r.isImport = true := by
  intro m hm
  rw [h.noted] at hm
  obtain ⟨x, hx, hm⟩ := List.mem_flatMap.mp hm
  obtain ⟨haccepted, himport⟩ := h.read x hx
  exact ⟨x.resource, haccepted, fst_of_mem_noteOf hm ▸ Path.same_refl _, himport⟩

/-- What the attachments of the modules that were read add to a traversal. -/
theorem Accounted.settleAttachments_eq {reads : List Read} (h : Accounted b root reads t) :
    b.settleAttachments t =
      let attached := firstSeen t.knownPaths (reads.flatMap fun x => b.attachedBy x.resource.path x.text)
      { t with
        visited := t.visited ++ attached.map Resource.path
        accepted := t.accepted ++ attached.filter fun r => b.files.isFile r.path t.disk
        diagnostics := t.diagnostics ++ (attached.filter fun r => !b.files.isFile r.path t.disk).map fun r =>
          .unresolved r "attachment not found" } := by
  have hattached : t.attachedBy.flatMap b.attachedResources =
      reads.flatMap fun x => b.attachedBy x.resource.path x.text := by
    rw [h.noted, List.flatMap_assoc]
    simp only [flatMap_noteOf]
  rw [Build.settleAttachments_eq h.exists_accepted_of_noted, hattached]

/-- In the end, the paths that are accounted for are those that were found. -/
theorem Accounted.isAmong_settled {reads : List Read} (h : Accounted b root reads t) (ht : t.pending = []) (p : Path) :
    p.isAmong (b.accountedPaths root (b.settleAttachments t)) = p.isAmong (b.foundPaths root reads) := by
  have hfirst := isAmong_firstSeen p t.knownPaths (reads.flatMap fun x => b.attachedBy x.resource.path x.text)
  have hkept := isAmong_kept_or_missing p (fun r => b.files.isFile r.path t.disk)
    (firstSeen t.knownPaths (reads.flatMap fun x => b.attachedBy x.resource.path x.text)) "attachment not found"
  have hbefore := h.isAmong_accountedPaths ht p
  have hknown := h.known p
  rw [h.settleAttachments_eq]
  simp only [accountedPaths, foundPaths, List.map_append, List.filterMap_append, isAmong_append]
    at hfirst hkept hbefore hknown ⊢
  grind

/-! ## Closure -/

/-- Whether all imports of the modules that were accepted are accounted for, as the files are in the end. -/
def Closed (b : Build σ) (root : Root) (t : Traversal σ) : Prop :=
  ∀ r ∈ t.accepted, r.isImport = true → ∀ q ∈ b.importsOf t.disk r, q.path.isAmong (b.accountedPaths root t) = true

/-- Whether a module was read with the text that its file has in the end. -/
def ReadAsLeft (b : Build σ) (reads : List Read) (disk : σ) (r : Resource) : Prop :=
  ∃ x ∈ reads, x.resource = r ∧ b.textOf? disk r = some x.text

/-- What a module imports as it is read is found. -/
theorem isAmong_foundPaths_of_read {reads : List Read} {x : Read} (hx : x ∈ reads) {q : Resource}
    (hq : q ∈ b.importedBy x.resource.path x.text) : q.path.isAmong (b.foundPaths root reads) = true := by
  have hfound : q ∈ b.foundIn root reads :=
    List.mem_append_right _ (List.mem_flatMap.mpr ⟨x, hx, List.mem_append_right _ hq⟩)
  exact isAmong_of_mem (List.mem_append_right _ (List.mem_map_of_mem (List.mem_append_left _ hfound)))

/-- The attachments of modules are no imports. -/
theorem mem_accepted_of_settled (hr : r ∈ (b.settleAttachments t).accepted) (himport : r.isImport = true) :
    r ∈ t.accepted := by
  obtain ⟨rs, hrs, hsettle⟩ := b.exists_settleAttachments t
  rw [hsettle] at hr
  rcases List.mem_append.mp hr with hr | hr
  · exact hr
  · rw [hrs r (List.mem_filter.mp hr).1] at himport
    cases himport

end Build

namespace Builder

variable {b : Builder σ} {root : Root} {s s' : BuildState σ} {fuel : Nat} {g : Graph}

/-- Every module that a build accepts was read, or was compiled with one that was read, and what is imported by a text
that was read is accounted for. So a build is closed under imports just if all that is imported by the other modules,
those that were not read as they are left, was found elsewhere. -/
theorem closed_iff_of_build (h : b.build fuel root s = some (.ok g, s')) :
    let build := b.buildOf root s.builds
    let reads := b.reads fuel root s
    ∃ t, b.traversal? fuel root s = some t ∧ g = build.graph t ∧ s' = ⟨t.disk, t.registry, s.builds + 1⟩ ∧
      (∀ r ∈ t.accepted, r.isImport = true → ∃ x ∈ reads, r = x.resource ∨ r ∈ x.siblings) ∧
      (∀ x ∈ reads, ∀ q ∈ build.importedBy x.resource.path x.text,
        q.path.isAmong (build.accountedPaths root t) = true) ∧
      (build.Closed root t ↔ ∀ r ∈ t.accepted, r.isImport = true → ¬ build.ReadAsLeft reads t.disk r →
        ∀ q ∈ build.importsOf t.disk r, q.path.isAmong (build.foundPaths root reads) = true) := by
  intro build reads
  obtain ⟨t, u, hrun, rfl, ht, rfl, rfl⟩ := exists_traversal h
  obtain ⟨haccounted, hpending⟩ := Build.accounted_of_run hrun
  have hpaths : ∀ p : Path, p.isAmong (build.accountedPaths root (build.settleAttachments u)) =
      p.isAmong (build.foundPaths root reads) := haccounted.isAmong_settled hpending
  refine ⟨_, ht, rfl, rfl, ?_, ?_, ?_, ?_⟩
  · intro r hr himport
    exact haccounted.accepted r (Build.mem_accepted_of_settled hr himport) himport
  · intro x hx q hq
    rw [hpaths]
    exact Build.isAmong_foundPaths_of_read hx hq
  · intro hclosed r hr himport _ q hq
    rw [← hpaths]
    exact hclosed r hr himport q hq
  · intro hothers r hr himport q hq
    rw [hpaths]
    by_cases hleft : build.ReadAsLeft reads (build.settleAttachments u).disk r
    · obtain ⟨x, hx, rfl, htext⟩ := hleft
      obtain ⟨text, htext', hq⟩ := Build.mem_importsOf.mp hq
      rw [htext] at htext'
      cases htext'
      exact Build.isAmong_foundPaths_of_read hx hq
    · exact hothers r hr himport hleft q hq

end Builder

/-! ## Modules that are compiled together -/

namespace CompiledTogether

/-- A module that can be compiled, and one that nothing but a compiled module imports. -/
def disk : Disk := .ofTexts [(["a.ts"], ""), (["c.js"], "")]

/-- A compiler that writes two modules in a row. -/
def compiler : Compiler Disk
  | .list typed, d => (⟨true, "", [typed]⟩, d)
  | .emit _, d => (⟨true, "", [⟨"/a.js"⟩, ⟨"/b.js"⟩]⟩,
      (d.put ["a.js"] (.file (Text.encode "import './b.js'") false)).put ["b.js"]
        (.file (Text.encode "import './c.js'") false))

def builder : Builder Disk := { Builder.onDisk with compiler := some compiler }

def root : Root := .script "import './a.js'" ⟨"/"⟩

/-- A resource of the build that was not read as it is left, with an import that was not found. -/
def hasLost (t : Traversal Disk) : Bool :=
  let build := builder.buildOf root 0
  let reads := builder.reads 3 root ⟨disk, .empty, 0⟩
  t.accepted.any fun r => r.isImport &&
    (reads.all fun x => x.resource != r || build.textOf? t.disk r != some x.text) &&
    (build.importsOf t.disk r).any fun q => !q.path.isAmong (build.foundPaths root reads)

/-- The second of the modules is not read, and what it imports is lost. -/
theorem not_closed_of_compiled : ∃ g s' t, builder.build 3 root ⟨disk, .empty, 0⟩ = some (.ok g, s') ∧
    builder.traversal? 3 root ⟨disk, .empty, 0⟩ = some t ∧ ¬ (builder.buildOf root 0).Closed root t := by
  obtain ⟨g, s', hbuild, -⟩ := Outcome.exists_of_paths?
    (show (builder.build 3 root ⟨disk, .empty, 0⟩).paths? = some [⟨"/a.js"⟩, ⟨"/b.js"⟩] by decide +kernel)
  have hlost : (builder.traversal? 3 root ⟨disk, .empty, 0⟩).any hasLost = true := by decide +kernel
  obtain ⟨t, ht, -, -, -, -, hiff⟩ := Builder.closed_iff_of_build hbuild
  refine ⟨g, s', t, hbuild, ht, fun hclosed => ?_⟩
  rw [ht] at hlost
  obtain ⟨r, hr, hlost⟩ := List.any_eq_true.mp (show hasLost t = true from hlost)
  simp only [Bool.and_eq_true, List.all_eq_true, List.any_eq_true] at hlost
  obtain ⟨⟨himport, hreads⟩, q, hq, hmissed⟩ := hlost
  have hnot : ¬ (builder.buildOf root 0).ReadAsLeft (builder.reads 3 root ⟨disk, .empty, 0⟩) t.disk r := by
    rintro ⟨x, hx, rfl, htext⟩
    simpa [htext] using hreads x hx
  rw [hiff.mp hclosed r hr himport hnot q hq] at hmissed
  cases hmissed

end CompiledTogether

end CellGraph
