import CellGraph.Proofs.Closure

/-!
# What a traversal knows is a partition

At every moment between two visits, what has been visited and what waits are different paths, and the visited paths fall
into three parts: that of the root, those of the resources that were accepted, and those that are said not to be there
(`Partitioned`). Every visit keeps this (`Partitioned.step`), whatever is compiled on the way and wherever the compiled
files lie, and so do the attachments of modules in the end (`Partitioned.settleAttachments`). It follows that no path is
visited twice, that a root is no resource of its own, and that every path comes to one thing only
(`Builder.partitioned_of_trail`).
-/

namespace CellGraph

variable {σ : Type}

/-! ## Different paths -/

/-- Whether no two of some paths are the same. -/
def Distinct (ps : List Path) : Prop := ps.Pairwise fun p q => p.same q = false

section Distinct

variable {p : Path} {ps qs seen : List Path}

theorem Distinct.perm (h : Distinct ps) (hperm : ps.Perm qs) : Distinct qs :=
  (hperm.pairwise_iff fun {p q} hpq => by rwa [Path.same_comm]).mp h

theorem Distinct.sublist (h : Distinct ps) (hsub : qs.Sublist ps) : Distinct qs := List.Pairwise.sublist hsub h

theorem distinct_append_singleton : Distinct (ps ++ [p]) ↔ Distinct ps ∧ p.isAmong ps = false := by
  unfold Distinct
  rw [List.pairwise_append]
  constructor
  · rintro ⟨hps, -, h⟩
    refine ⟨hps, List.any_eq_false.mpr fun q hq => ?_⟩
    rw [Path.same_comm, h q hq p List.mem_cons_self]
    exact Bool.false_ne_true
  · rintro ⟨hps, h⟩
    refine ⟨hps, List.pairwise_singleton _ _, fun q hq x hx => ?_⟩
    rw [List.mem_singleton.mp hx, Path.same_comm]
    exact Bool.eq_false_iff.mpr (List.any_eq_false.mp h q hq)

/-- A path among different ones is there once. -/
theorem Distinct.countP_same (h : Distinct ps) (hp : p.isAmong ps = true) : ps.countP p.same = 1 := by
  induction ps with
  | nil => cases hp
  | cons q ps ih =>
    obtain ⟨hq, hps⟩ := List.pairwise_cons.mp h
    rw [List.countP_cons]
    cases hsame : p.same q with
    | true =>
      have hrest : ps.countP p.same = 0 := by
        refine List.countP_eq_zero.mpr fun x hx hpx => ?_
        have hqx : q.same x = true := Path.same_trans (Path.same_comm p q ▸ hsame) hpx
        rw [hq x hx] at hqx
        cases hqx
      rw [hrest]
      rfl
    | false =>
      rw [isAmong_cons, hsame, Bool.false_or] at hp
      rw [ih hps hp]
      rfl

/-- The first references to paths that had not been seen lead to different ones. -/
theorem Distinct.firstSeen (h : Distinct seen) (rs : List Resource) :
    Distinct (seen ++ (firstSeen seen rs).map Resource.path) := by
  induction rs generalizing seen with
  | nil => simpa [CellGraph.firstSeen] using h
  | cons r rs ih =>
    rw [firstSeen_cons]
    split
    · exact ih h
    · rename_i hr
      rw [List.map_cons, List.append_cons]
      exact ih (distinct_append_singleton.mpr ⟨h, Bool.eq_false_iff.mpr hr⟩)

end Distinct

namespace Build

variable {b : Build σ} {root : Root} {r : Resource} {pending : List Resource} {t u : Traversal σ}

/-! ## The invariant -/

/-- The paths that a traversal has visited or that wait are different, and each one visited is accounted for once: as
the path of the root, of a resource or of a file that is not there. -/
structure Partitioned (b : Build σ) (root : Root) (t : Traversal σ) : Prop where
  distinct : Distinct (t.visited ++ t.pending.map Resource.path)
  accounted : t.visited.Perm (b.accountedPaths root t)

/-- What waits has not been visited. -/
theorem Partitioned.not_visited (h : b.Partitioned root t) (ht : t.pending = r :: pending) :
    r.path.isAmong t.visited = false := by
  have hdistinct := h.distinct
  rw [ht, List.map_cons, List.append_cons] at hdistinct
  exact (distinct_append_singleton.mp (hdistinct.sublist (List.sublist_append_left _ _))).2

/-- Resources add nothing to what is known beside the paths that have been visited or wait. -/
theorem Partitioned.isAmong_knownPaths (h : b.Partitioned root t) (p : Path) :
    p.isAmong t.knownPaths = p.isAmong (t.visited ++ t.pending.map Resource.path) := by
  have haccepted : p.isAmong (t.accepted.map Resource.path) = true → p.isAmong t.visited = true :=
    isAmong_mono fun q hq => h.accounted.mem_iff.mpr
      (List.mem_append_left _ (List.mem_append_right _ hq))
  cases hp : p.isAmong (t.accepted.map Resource.path) with
  | false => simp [Traversal.knownPaths, hp]
  | true => simp [haccepted hp, Traversal.knownPaths]

theorem distinct_rootPath (b : Build σ) (root : Root) : Distinct (b.rootPath root).toList := by
  unfold Distinct
  cases b.rootPath root <;> simp

theorem Partitioned.seed (b : Build σ) (root : Root) (disk : σ) (registry : Registry) :
    b.Partitioned root (b.seed root disk registry) := by
  rw [seed_eq]
  refine ⟨(b.distinct_rootPath root).firstSeen _, ?_⟩
  simp [accountedPaths, Traversal.start, readRoot, filterMap_missing?_readCells]

/-- Paths that are newly visited are to be accounted for as new resources or as files that are not there. -/
theorem Partitioned.extend (h : b.Partitioned root t) (new missing : List Path) (kept : List Resource)
    (hdistinct : Distinct (u.visited ++ u.pending.map Resource.path)) (hvisited : u.visited = t.visited ++ new)
    (haccepted : u.accepted = t.accepted ++ kept)
    (hmissing : u.diagnostics.filterMap Diagnostic.missing? = t.diagnostics.filterMap Diagnostic.missing? ++ missing)
    (hnew : new.Perm (kept.map Resource.path ++ missing)) : b.Partitioned root u := by
  refine ⟨hdistinct, ?_⟩
  have hbefore := List.perm_iff_count.mp h.accounted
  have hafter := List.perm_iff_count.mp hnew
  rw [List.perm_iff_count]
  intro p
  rw [hvisited, accountedPaths, haccepted, hmissing]
  simp only [accountedPaths, List.map_append, List.count_append] at hbefore hafter ⊢
  have hp := hbefore p
  have hp' := hafter p
  omega

/-! ## Visits -/

/-- A visit that does not fail the build keeps the partition. -/
theorem Partitioned.step (h : b.Partitioned root t) (ht : t.pending = r :: pending) {new : List Read}
    (hvisited : Visited b r { t with pending } new u) : b.Partitioned root u := by
  have hdistinct : Distinct (t.visited ++ [r.path] ++ pending.map Resource.path) := by
    have hwaiting := h.distinct
    rwa [ht, List.map_cons, List.append_cons] at hwaiting
  cases hvisited with
  | passed hpath =>
    rw [h.not_visited ht] at hpath
    cases hpath
  | checked =>
    rw [visitAttachment_eq]
    cases hfile : b.files.isFile r.path t.disk with
    | true =>
      exact h.extend [r.path] [] [r] hdistinct rfl (by simp [Traversal.visit, hfile])
        (by simp [Traversal.visit, hfile]) (by simp)
    | false =>
      exact h.extend [r.path] [r.path] [] hdistinct rfl
        (by simp [Traversal.visit, hfile]) (by simp [Traversal.visit, hfile]) (by simp)
  | missing =>
    exact h.extend [r.path] [r.path] [] hdistinct rfl (by simp) (by simp) (by simp)
  | read _ _ _ _ _ text siblings =>
    -- the compiled files and then the imports are taken by their first references, beside all that is known
    have hknown : ∀ p : Path, p.isAmong (Traversal.knownPaths { t with pending } ++ [r.path]) =
        p.isAmong (t.visited ++ [r.path] ++ pending.map Resource.path) := by
      intro p
      rw [t.isAmong_knownPaths_of_pending ht, h.isAmong_knownPaths, ht, List.map_cons, List.append_cons]
    have hadopted : ∀ p : Path, p.isAmong (Traversal.knownPaths { t with pending } ++ [r.path] ++
        siblings.map Resource.path) = p.isAmong (t.visited ++ [r.path] ++ pending.map Resource.path ++
          (firstSeen (t.visited ++ [r.path] ++ pending.map Resource.path) siblings).map Resource.path) := by
      intro p
      rw [isAmong_firstSeen, isAmong_append, hknown, ← isAmong_append]
    rw [firstSeen_congr hadopted, firstSeen_congr hknown]
    have hfound := (hdistinct.firstSeen siblings).firstSeen (b.importedBy r.path text)
    refine h.extend _ [] _ (hfound.perm ?_) rfl rfl (by simp [filterMap_missing?_readFile]) (by simp)
    rw [List.perm_iff_count]
    intro p
    simp only [List.map_append, List.count_append, List.count_cons, List.count_nil]
    omega

/-- Attachments that are looked up in turn keep the partition. -/
theorem Partitioned.foldl_settleAttachment (h : b.Partitioned root t) (rs : List Resource) :
    b.Partitioned root (rs.foldl b.settleAttachment t) := by
  rw [Build.foldl_settleAttachment, firstSeen_congr h.isAmong_knownPaths]
  refine h.extend _ _ _ ((h.distinct.firstSeen rs).perm ?_) rfl rfl (List.filterMap_append ..) ?_
  · rw [List.perm_iff_count]
    intro p
    simp only [List.count_append]
    omega
  · have hmissing : (Diagnostic.missing? ∘ fun r => .unresolved r "attachment not found") =
        fun r : Resource => some r.path := rfl
    rw [List.filterMap_map, hmissing, List.filterMap_eq_map', ← List.map_append]
    exact (List.filter_append_perm _ _).symm.map _

theorem Partitioned.settleAttachments (h : b.Partitioned root t) : b.Partitioned root (b.settleAttachments t) := by
  unfold Build.settleAttachments
  induction t.attachedBy generalizing t with
  | nil => exact h
  | cons m ms ih =>
    refine ih ?_
    unfold settleAttachmentsOf
    split
    · exact h.foldl_settleAttachment _
    · exact h

/-! ## Trails -/

/-- What the visits of a trail visited are different paths, and all of them are known to be visited. -/
structure Toured (b : Build σ) (root : Root) (rs : List Resource) (t : Traversal σ) : Prop extends
    Partitioned b root t where
  once : Distinct ((b.rootPath root).toList ++ rs.map Resource.path)
  toured : (b.rootPath root).toList ++ rs.map Resource.path ⊆ t.visited

/-- A visit only adds to the paths that have been visited, and the one of its resource is among them. -/
theorem Visited.subset_visited {new : List Read} (h : Visited b r t new u) (hpath : r.path.isAmong t.visited = false) :
    t.visited ++ [r.path] ⊆ u.visited := by
  cases h with
  | passed hvisited =>
    rw [hpath] at hvisited
    cases hvisited
  | checked =>
    rw [visitAttachment_eq]
    exact fun p hp => hp
  | missing => exact fun p hp => hp
  | read => simp

/-- The path of what is to be visited next has not been visited on the way. -/
theorem Toured.distinct_turn {rs : List Resource} (h : b.Toured root rs t) (ht : t.pending = r :: pending) :
    Distinct ((b.rootPath root).toList ++ (rs ++ [r]).map Resource.path) := by
  rw [List.map_append, List.map_singleton, ← List.append_assoc, distinct_append_singleton]
  refine ⟨h.once, Bool.eq_false_iff.mpr fun hmem => ?_⟩
  have hvisited := isAmong_mono h.toured hmem
  rw [h.not_visited ht] at hvisited
  cases hvisited

theorem Trail.toured {disk : σ} {registry : Registry} {rs : List Resource}
    (h : b.Trail (b.seed root disk registry) rs t) : b.Toured root rs t := by
  induction h with
  | start =>
    have hseed := Partitioned.seed b root disk registry
    have hroot : (b.rootPath root).toList ⊆ (b.seed root disk registry).visited := by
      rw [seed_eq]
      exact fun p hp => hp
    exact { hseed with once := by simpa using b.distinct_rootPath root, toured := by simpa using hroot }
  | @visit rs r u v _ hvisit ih =>
    obtain ⟨pending, hpending, hstep⟩ := hvisit
    have hvisited := visited_of_step hstep
    have hsubset := hvisited.subset_visited (ih.not_visited hpending)
    refine { ih.toPartitioned.step hpending hvisited with once := ih.distinct_turn hpending, toured := ?_ }
    rw [List.map_append, List.map_singleton, ← List.append_assoc]
    exact fun p hp => hsubset ((List.append_subset.mpr
      ⟨List.Subset.trans ih.toured (List.subset_append_left _ _), List.subset_append_right _ _⟩) hp)

/-- A path that has been visited is that of the root, of one resource or of one file that is not there. -/
theorem Partitioned.countP_accountedPaths (h : b.Partitioned root t) {p : Path} (hp : p.isAmong t.visited = true) :
    (b.accountedPaths root t).countP p.same = 1 := by
  rw [← h.accounted.countP_eq]
  exact (h.distinct.sublist (List.sublist_append_left _ _)).countP_same hp

/-- The path of a root is not that of a resource. -/
theorem Partitioned.not_root (h : b.Partitioned root t) (hr : r ∈ t.accepted) :
    r.path.isAmong (b.rootPath root).toList = false := by
  have hdistinct := (h.distinct.sublist (List.sublist_append_left _ _)).perm h.accounted
  rw [accountedPaths, List.append_assoc] at hdistinct
  refine List.any_eq_false.mpr fun p hp => ?_
  rw [Path.same_comm, (List.pairwise_append.mp hdistinct).2.2 p hp r.path
    (List.mem_append_left _ (List.mem_map_of_mem hr))]
  exact Bool.false_ne_true

end Build

namespace Builder

variable {b : Builder σ} {root : Root} {s s' : BuildState σ} {fuel : Nat} {g : Graph}

/-- Wherever a build is between two visits, and when the attachments of modules have been looked up from there, what it
has visited is accounted for once and does not wait; no visit was to a path that had been visited before, or to that
of the root. So in a build that comes to a graph each path that was visited came to one thing, and no resource is at
the path of the root. -/
theorem partitioned_of_trail (b : Builder σ) (root : Root) (s : BuildState σ) :
    let build := b.buildOf root s.builds
    let start := build.seed root s.disk s.registry
    (∀ rs t, build.Trail start rs t → build.Partitioned root t ∧ build.Partitioned root (build.settleAttachments t) ∧
      Distinct ((build.rootPath root).toList ++ rs.map Resource.path)) ∧
    (∀ fuel g s', b.build fuel root s = some (.ok g, s') → ∃ rs t, build.Trail start rs t ∧ t.pending = [] ∧
      g = build.graph (build.settleAttachments t) ∧
      (∀ p : Path, p.isAmong (build.settleAttachments t).visited = true →
        (build.accountedPaths root (build.settleAttachments t)).countP p.same = 1) ∧
      ∀ r ∈ g.resources, r.path.isAmong (build.rootPath root).toList = false) := by
  intro build start
  refine ⟨fun rs t h => ⟨h.toured.toPartitioned, h.toured.settleAttachments, h.toured.once⟩, ?_⟩
  intro fuel g s' h
  obtain ⟨t, u, hrun, rfl, -, rfl, -⟩ := exists_traversal h
  obtain ⟨rs, v, htrail, rfl, hpending⟩ := Build.exists_trail_of_run hrun
  have hsettled := htrail.toured.settleAttachments
  refine ⟨rs, _, htrail, hpending, rfl, fun p hp => hsettled.countP_accountedPaths hp, fun r hr => ?_⟩
  exact hsettled.not_root (List.mem_filter.mp hr).1

end Builder

/-! ## Compiled files that are known -/

namespace CompiledAgain

/-- The file of a root, and a module that can be compiled. -/
def disk : Disk := .ofTexts [(["root.js"], ""), (["a.ts"], "")]

/-- A compiler that writes a module, one that waits to be visited, and the file of the root. -/
def compiler : Compiler Disk
  | .list typed, d => (⟨true, "", [typed]⟩, d)
  | .emit _, d => (⟨true, "", [⟨"/a.js"⟩, ⟨"/b.js"⟩, ⟨"/root.js"⟩]⟩,
      (d.put ["a.js"] (.file (Text.encode "import './root.js'") false)).put ["b.js"] (.file [] false))

def builder : Builder Disk := { Builder.onDisk with compiler := some compiler }

/-- A root that imports both modules and attaches a file that is not there. -/
def root : Root :=
  { Root.script "import './a.js'\nimport './b.js'\nFileAttachment('c.csv')" ⟨"/"⟩ with path := some ⟨"/root.js"⟩ }

/-- The root is not compiled into a resource, and the module that waits is visited in its turn. -/
theorem partitioned_of_compiled_again : ∃ g s' rs t,
    builder.build 3 root ⟨disk, .empty, 0⟩ = some (.ok g, s') ∧
    g.resources.map Resource.path = [⟨"/a.js"⟩, ⟨"/b.js"⟩] ∧
    (builder.buildOf root 0).Trail ((builder.buildOf root 0).seed root disk .empty) rs t ∧
    (builder.buildOf root 0).Partitioned root t ∧ Distinct (⟨"/root.js"⟩ :: rs.map Resource.path) := by
  obtain ⟨g, s', hbuild, hpaths⟩ := Outcome.exists_of_paths?
    (show (builder.build 3 root ⟨disk, .empty, 0⟩).paths? = some [⟨"/a.js"⟩, ⟨"/b.js"⟩] by decide +kernel)
  obtain ⟨htrails, hgraphs⟩ := Builder.partitioned_of_trail builder root ⟨disk, .empty, 0⟩
  obtain ⟨rs, t, htrail, -⟩ := hgraphs 3 g s' hbuild
  obtain ⟨hpartitioned, -, honce⟩ := htrails rs t htrail
  have hroot : (builder.buildOf root 0).rootPath root = some ⟨"/root.js"⟩ := by decide +kernel
  refine ⟨g, s', rs, t, hbuild, hpaths, htrail, hpartitioned, ?_⟩
  have hdistinct : Distinct (((builder.buildOf root 0).rootPath root).toList ++ rs.map Resource.path) := honce
  rwa [hroot] at hdistinct

end CompiledAgain

end CellGraph
