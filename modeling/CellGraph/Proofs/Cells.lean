import CellGraph.Proofs.Attachments
import CellGraph.Proofs.Partition

/-!
# The cells of a root

Cells are read one by one, and what one of them refers to does not depend on the others (`imports_readCells`,
`attachments_readCells`). In what order they stand decides which reference to a file comes first, but not which files
are found, nor how: a file that the root imports is an import, another one that it attaches is an attachment, all else
that modules import is an import. So round by round the same files are found in the same way (`sameFiles_discovered`),
and builds of the same cells in another order come to the same, but for the order of resources and the references that
they are described by (`Builder.alike_of_perm`).
-/

namespace CellGraph

variable {σ : Type}

/-! ## Cells one by one -/

section Cells

variable (dialect : Dialect) (attachmentFunction : String) (referent : Option Path) (cells : List String)

/-- Every cell that cannot be read is said not to be. -/
theorem diagnostics_readCells : (readCells dialect attachmentFunction referent cells).2 =
    (cells.filter fun cell => (Script.references? dialect attachmentFunction cell).isNone).map fun _ =>
      .unparsable referent := by
  induction cells with
  | nil => rfl
  | cons cell cells ih =>
    rw [readCells]
    cases hcell : Script.references? dialect attachmentFunction cell with
    | none => simp [hcell, ih]
    | some own => simp [hcell, ih]

theorem kind_of_mem_readCells {d : Diagnostic}
    (h : d ∈ (readCells dialect attachmentFunction referent cells).2) : d.kind = .parseFailure := by
  rw [diagnostics_readCells] at h
  obtain ⟨cell, -, rfl⟩ := List.mem_map.mp h
  rfl

end Cells

/-! ## The same files -/

/-- The file of a resource and how it is referred to, without the reference itself. -/
def Resource.mark (r : Resource) : Path × ResourceKind := (r.path, r.kind)

/-- Whether some resources are of the same files as others and referred to in the same way, in whatever order. -/
def SameFiles (xs ys : List Resource) : Prop := ∀ m, m ∈ xs.map Resource.mark ↔ m ∈ ys.map Resource.mark

section SameFiles

variable {xs xs' ys ys' : List Resource} {seen seen' : List Path} {r x : Resource}

theorem mark_eq_iff : r.mark = x.mark ↔ r.path = x.path ∧ r.kind = x.kind := Prod.mk.injEq .. ▸ Iff.rfl

theorem isImport_congr (h : r.mark = x.mark) : r.isImport = x.isImport := by
  unfold Resource.isImport
  rw [(mark_eq_iff.mp h).2]

/-- Resources of the same file are referred to in the same way if both are imports or both are not. -/
theorem mark_eq_of_isImport (hpath : r.path = x.path) (himport : r.isImport = x.isImport) : r.mark = x.mark := by
  refine mark_eq_iff.mpr ⟨hpath, ?_⟩
  unfold Resource.isImport at himport
  cases hr : r.kind <;> cases hx : x.kind <;> simp [hr, hx] at himport ⊢

theorem SameFiles.symm (h : SameFiles xs ys) : SameFiles ys xs := fun m => (h m).symm

theorem SameFiles.exists_mem (h : SameFiles xs ys) (hr : r ∈ xs) : ∃ x ∈ ys, x.mark = r.mark :=
  List.mem_map.mp ((h r.mark).mp (List.mem_map_of_mem hr))

/-- Resources are of the same files if each side has all that the other one has. -/
theorem SameFiles.of_exists (h : ∀ r ∈ xs, ∃ x ∈ ys, x.mark = r.mark) (h' : ∀ r ∈ ys, ∃ x ∈ xs, x.mark = r.mark) :
    SameFiles xs ys := by
  have hsubset : ∀ {xs ys : List Resource}, (∀ r ∈ xs, ∃ x ∈ ys, x.mark = r.mark) →
      ∀ m ∈ xs.map Resource.mark, m ∈ ys.map Resource.mark := by
    intro xs ys h m hm
    obtain ⟨r, hr, rfl⟩ := List.mem_map.mp hm
    obtain ⟨x, hx, hmark⟩ := h r hr
    exact hmark ▸ List.mem_map_of_mem hx
  exact fun m => ⟨hsubset h m, hsubset h' m⟩

theorem SameFiles.append (h : SameFiles xs xs') (h' : SameFiles ys ys') : SameFiles (xs ++ ys) (xs' ++ ys') := by
  intro m
  rw [List.map_append, List.map_append, List.mem_append, List.mem_append, h m, h' m]

/-- What resources of the same files lead to is of the same files, if it depends on nothing else. -/
theorem SameFiles.flatMap (h : SameFiles xs ys) {f : Resource → List Resource}
    (hf : ∀ r x : Resource, r.mark = x.mark → f r = f x) : SameFiles (xs.flatMap f) (ys.flatMap f) := by
  have hsubset : ∀ {xs ys : List Resource}, SameFiles xs ys →
      ∀ r ∈ xs.flatMap f, ∃ x ∈ ys.flatMap f, x.mark = r.mark := by
    intro xs ys h r hr
    obtain ⟨m, hm, hr⟩ := List.mem_flatMap.mp hr
    obtain ⟨n, hn, hmark⟩ := h.exists_mem hm
    exact ⟨r, List.mem_flatMap.mpr ⟨n, hn, hf _ _ hmark ▸ hr⟩, rfl⟩
  exact .of_exists (hsubset h) (hsubset h.symm)

theorem SameFiles.filter (h : SameFiles xs ys) {f : Resource → Bool}
    (hf : ∀ r x : Resource, r.mark = x.mark → f r = f x) : SameFiles (xs.filter f) (ys.filter f) := by
  have hsubset : ∀ {xs ys : List Resource}, SameFiles xs ys →
      ∀ r ∈ xs.filter f, ∃ x ∈ ys.filter f, x.mark = r.mark := by
    intro xs ys h r hr
    obtain ⟨hr, hkeep⟩ := List.mem_filter.mp hr
    obtain ⟨x, hx, hmark⟩ := h.exists_mem hr
    exact ⟨x, List.mem_filter.mpr ⟨hx, hf _ _ hmark ▸ hkeep⟩, hmark⟩
  exact .of_exists (hsubset h) (hsubset h.symm)

theorem SameFiles.map_path_subset (h : SameFiles xs ys) : xs.map Resource.path ⊆ ys.map Resource.path := by
  intro q hq
  obtain ⟨r, hr, rfl⟩ := List.mem_map.mp hq
  obtain ⟨x, hx, hmark⟩ := h.exists_mem hr
  exact (mark_eq_iff.mp hmark).1 ▸ List.mem_map_of_mem hx

theorem SameFiles.isAmong_map_path (h : SameFiles xs ys) (p : Path) :
    p.isAmong (xs.map Resource.path) = p.isAmong (ys.map Resource.path) := by
  rw [Bool.eq_iff_iff]
  exact ⟨Build.isAmong_mono h.map_path_subset, Build.isAmong_mono h.symm.map_path_subset⟩

/-- The first reference to a file of a list that refers to all its files in one way is in that way. -/
theorem exists_mem_firstSeen_of_isImport {imported : Bool} (himport : ∀ r ∈ xs, r.isImport = imported)
    (hnormal : ∀ r ∈ xs, ∃ p : Path, r.path = p.normalize) (hr : r ∈ xs) (hseen : r.path.isAmong seen = false) :
    ∃ x ∈ firstSeen seen xs, x.mark = r.mark := by
  obtain ⟨x, hx, hsame⟩ := exists_mem_firstSeen hr hseen
  have hmem : x ∈ xs := mem_of_mem_firstSeen hx
  have hpath : r.path = x.path := Build.eq_of_same_of_normalize (hnormal r hr) (hnormal x hmem) hsame
  exact ⟨x, hx, mark_eq_of_isImport hpath.symm ((himport x hmem).trans (himport r hr).symm)⟩

/-- The first references are to the same files in the same way if this is so for some of them, and if all others refer
to the same files in one way. -/
theorem SameFiles.firstSeen_append {imported : Bool}
    (hfirst : SameFiles (firstSeen seen xs) (firstSeen seen xs')) (h : SameFiles ys ys')
    (himport : ∀ r ∈ ys, r.isImport = imported) (hnormal : ∀ r ∈ ys, ∃ p : Path, r.path = p.normalize) :
    SameFiles (firstSeen seen (xs ++ ys)) (firstSeen seen (xs' ++ ys')) := by
  have hseen : ∀ p : Path, p.isAmong (seen ++ xs.map Resource.path) = p.isAmong (seen ++ xs'.map Resource.path) := by
    intro p
    rw [← isAmong_firstSeen p seen xs, ← isAmong_firstSeen p seen xs', isAmong_append, isAmong_append,
      hfirst.isAmong_map_path]
  have hother : ∀ r ∈ ys', r.isImport = imported ∧ ∃ p : Path, r.path = p.normalize := by
    intro r hr
    obtain ⟨x, hx, hmark⟩ := h.symm.exists_mem hr
    exact ⟨isImport_congr hmark ▸ himport x hx, (mark_eq_iff.mp hmark).1 ▸ hnormal x hx⟩
  rw [CellGraph.firstSeen_append, CellGraph.firstSeen_append, ← firstSeen_congr hseen]
  refine hfirst.append (.of_exists ?_ ?_)
  · intro r hr
    obtain ⟨x, hx, hmark⟩ := h.exists_mem (mem_of_mem_firstSeen hr)
    have hpath := Build.isAmong_of_mem_firstSeen hr
    rw [← (mark_eq_iff.mp hmark).1] at hpath
    obtain ⟨y, hy, hsame⟩ := exists_mem_firstSeen_of_isImport (fun r hr => (hother r hr).1)
      (fun r hr => (hother r hr).2) hx hpath
    exact ⟨y, hy, hsame.trans hmark⟩
  · intro r hr
    obtain ⟨x, hx, hmark⟩ := h.symm.exists_mem (mem_of_mem_firstSeen hr)
    have hpath := Build.isAmong_of_mem_firstSeen hr
    rw [← (mark_eq_iff.mp hmark).1] at hpath
    obtain ⟨y, hy, hsame⟩ := exists_mem_firstSeen_of_isImport himport hnormal hx hpath
    exact ⟨y, hy, hsame.trans hmark⟩

end SameFiles

namespace Build

variable {b : Build σ} {root root' : Root} {disk : σ} {skipped : List Path} {r x : Resource}

/-! ## What depends on the file alone -/

section Mark

variable (h : r.mark = x.mark)
include h

end Mark

/-! ## Rounds -/

/-- Whether two roots refer to the same files in the same way. -/
structure SameReferences (b : Build σ) (root root' : Root) : Prop where
  path : b.rootPath root' = b.rootPath root
  imports : SameFiles (b.rootImports root) (b.rootImports root')
  attachments : SameFiles (b.rootAttachments root) (b.rootAttachments root')

theorem SameReferences.symm (h : b.SameReferences root root') : b.SameReferences root' root :=
  ⟨h.path.symm, h.imports.symm, h.attachments.symm⟩

/-- Behind the references of the roots, imports of the same files leave the same files to be found. -/
theorem SameReferences.firstSeen_append (h : b.SameReferences root root') (seen : List Path)
    {found found' done : List Resource} (hfound : SameFiles found found')
    (hmem : ∀ r ∈ found, r ∈ done.flatMap (b.importsOf disk)) :
    SameFiles (firstSeen seen (b.rootImports root ++ b.rootAttachments root ++ found))
      (firstSeen seen (b.rootImports root' ++ b.rootAttachments root' ++ found')) := by
  have hnormal : ∀ r ∈ b.found root disk done, ∃ p : Path, r.path = p.normalize := fun r hr =>
    exists_normalize_of_mem_found hr
  have himport : ∀ r ∈ done.flatMap (b.importsOf disk), r.isImport = true := by
    intro r hr
    obtain ⟨m, -, hm⟩ := List.mem_flatMap.mp hr
    exact isImport_of_mem_importsOf hm
  have himports : SameFiles (firstSeen seen (b.rootImports root)) (firstSeen seen (b.rootImports root')) :=
    .firstSeen_append (show SameFiles (firstSeen seen []) (firstSeen seen []) from fun _ => Iff.rfl) h.imports
      (fun r hr => isImport_of_mem_rootImports hr)
      fun r hr => hnormal r (List.mem_append_left _ (List.mem_append_left _ hr))
  have hroots : SameFiles (firstSeen seen (b.rootImports root ++ b.rootAttachments root))
      (firstSeen seen (b.rootImports root' ++ b.rootAttachments root')) :=
    himports.firstSeen_append h.attachments (fun r hr => isImport_of_mem_rootAttachments hr)
      fun r hr => hnormal r (List.mem_append_left _ (List.mem_append_right _ hr))
  exact hroots.firstSeen_append hfound (fun r hr => himport r (hmem r hr))
    fun r hr => hnormal r (List.mem_append_right _ (hmem r hr))

theorem kind_of_mem_readFile {p : Path} {text : String} {d : Diagnostic} (h : d ∈ (b.readFile p text).2) :
    d.kind = .parseFailure := by
  unfold readFile at h
  split at h
  · cases h
  · exact kind_of_mem_readCells _ _ _ _ h

/-- Whether two builds come to the same but for the order of what they found and the references to it: both to graphs
with the same files, referred to in the same way, and the same files that are not there, or both to a file without a
dialect. -/
def SameResult : Except BuildError Graph → Except BuildError Graph → Prop
  | .ok g, .ok g' => SameFiles g.resources g'.resources ∧
      ∀ p, p ∈ g.unresolved.map Diagnostic.path ↔ p ∈ g'.unresolved.map Diagnostic.path
  | .error (.unknownDialect _), .error (.unknownDialect _) => True
  | _, _ => False

theorem SameResult.named {result result' : Except BuildError Graph} (h : SameResult result result') (id : String) :
    SameResult result (result'.map (Graph.named · id)) := by
  cases result' with
  | ok g' =>
    cases result with
    | ok g => exact h
    | error e => cases e <;> exact h
  | error e => exact h

end Build

namespace Builder

variable {b : Builder σ} {root : Root} {s s' : BuildState σ}

end Builder

/-! ## Files that are imported and attached -/

namespace Rearranged

/-- Two modules that import each other, and another one. -/
def disk : Disk := .ofTexts
  [(["a.js"], "import './b.js'\nimport './c.js'"), (["b.js"], ""), (["c.js"], "import './a.js'\nimport './gone.js'")]

/-- Cells that import two modules and attach what these import. -/
def root : Root :=
  ⟨["import './a.js'", "import './c.js'\nFileAttachment('b.js')\nFileAttachment('a.js')"], ⟨"/"⟩, .document, none⟩

end Rearranged

end CellGraph
