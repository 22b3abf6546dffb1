import CellGraph.Package.Plain
import CellGraph.Proofs.Filenames
import CellGraph.Proofs.Termination

/-!
# One file, one name

Resources are told apart by their paths as these are written. What references lead to has an absolute normal path, so
there one file has one path, and one name. A file that was compiled with a missing module has the path that the compiler
reports. If that is no absolute normal path, its file may be that of another resource, or its name; there is no other
way for a file to be listed twice, or for a name to stand for two resources (`Builder.oneToOne_iff_of_build`).

Paths are texts here. Of files whose paths are none, two can have the same name though both paths are absolute and
normal, as what is no text is lost in a name (`RawPath.Legible`).
-/

namespace CellGraph

variable {σ : Type}

theorem eraseDups_eq_self {α : Type} [BEq α] [LawfulBEq α] {xs : List α} (h : xs.Nodup) : xs.eraseDups = xs := by
  induction xs with
  | nil => rfl
  | cons x xs ih =>
    obtain ⟨hx, hxs⟩ := List.nodup_cons.mp h
    have hkept : xs.filter (fun y => !y == x) = xs := by
      apply List.filter_eq_self.mpr
      intro y hy
      have hne : y ≠ x := fun e => hx (e ▸ hy)
      simp [hne]
    rw [List.eraseDups_cons, hkept, ih hxs]

/-- An absolute normal path is the same from any working directory. -/
theorem Path.Canonical.absolute_eq {p : Path} (h : p.Canonical) (workingDirectory : Path) :
    p.absolute workingDirectory = p := by
  have hjoin : workingDirectory.join p = p := by simp [join, h.isAbsolute]
  rw [absolute, hjoin, h.normalize]

/-! ## Different resources -/

section Different

variable {rs : List Resource} {r q : Resource}

/-- Different resources whose paths are all different have different paths. -/
theorem Distinct.same_eq_false {f : Resource → Path} (h : Distinct (rs.map f)) (hr : r ∈ rs) (hq : q ∈ rs)
    (hne : r ≠ q) :
    (f r).same (f q) = false := by
  have hsymm : Std.Symm fun x y => (f x).same (f y) = false := ⟨fun x y hxy => by rwa [Path.same_comm]⟩
  exact (List.pairwise_map.mp h).forall hr hq hne

theorem Distinct.nodup (h : Distinct (rs.map Resource.path)) : rs.Nodup := by
  apply (List.pairwise_map.mp h).imp
  rintro r q hsame rfl
  rw [Path.same_refl] at hsame
  cases hsame

end Different

/-- Whether the resources of a graph are as many files, with as many names. -/
structure Graph.OneToOne (g : Graph) (workingDirectory : Path) : Prop where
  files : Distinct (g.resources.map fun r => r.path.absolute workingDirectory)
  names : (g.resources.map Resource.filename).Nodup
  listed : Package.plain g = g.resources.map Resource.filename

/-- If all paths are different as they are written, resources can share a file or a name only where a path is not
absolute and normal. -/
theorem Graph.oneToOne_iff {g : Graph} {roots : Roots} (hroots : roots.Canonical) (workingDirectory : Path)
    (hpaths : Distinct (g.resources.map Resource.path))
    (hnamed : ∀ r ∈ g.resources, r.filename = roots.filename r.path r.anchor) :
    g.OneToOne workingDirectory ↔ ∀ r ∈ g.resources, ¬ r.path.Canonical → ∀ q ∈ g.resources, q ≠ r →
      q.path.absolute workingDirectory ≠ r.path.absolute workingDirectory ∧ q.filename ≠ r.filename := by
  constructor
  · intro h r hr _ q hq hne
    constructor
    · intro hfile
      have hsame := h.files.same_eq_false hq hr hne
      rw [hfile, Path.same_refl] at hsame
      cases hsame
    · intro hname
      exact hne (List.inj_on_of_nodup_map h.names hq hr hname)
  · intro h
    have hfiles : Distinct (g.resources.map fun r => r.path.absolute workingDirectory) := by
      apply List.pairwise_map.mpr
      refine (List.pairwise_map.mp hpaths).imp_of_mem fun {r q} hr hq hsame => ?_
      have hne : r ≠ q := by
        rintro rfl
        rw [Path.same_refl] at hsame
        cases hsame
      by_contra hagain
      have hfile := Path.normalize_eq_of_same (eq_true_of_ne_false hagain)
      by_cases hrc : r.path.Canonical
      · by_cases hqc : q.path.Canonical
        · rw [hrc.absolute_eq, hqc.absolute_eq] at hagain
          exact hagain hsame
        · exact (h q hq hqc r hr hne).1 hfile
      · exact (h r hr hrc q hq hne.symm).1 hfile.symm
    have hnames : (g.resources.map Resource.filename).Nodup := by
      refine hpaths.nodup.map_on fun r hr q hq hname => ?_
      by_contra hne
      by_cases hrc : r.path.Canonical
      · by_cases hqc : q.path.Canonical
        · have hsame := hpaths.same_eq_false hr hq hne
          rw [hnamed r hr, hnamed q hq] at hname
          rw [Roots.filename_injective hroots hrc hqc hname, Path.same_refl] at hsame
          cases hsame
        · exact (h q hq hqc r hr hne).2 hname
      · exact (h r hr hrc q hq (Ne.symm hne)).2 hname.symm
    exact ⟨hfiles, hnames, eraseDups_eq_self hnames⟩

/-- The files that come with a compiled module are among those that were written. -/
theorem mem_emitted_of_mem_siblings {fs : FileSystem σ} {roots : Roots} {compile : Compiler σ} {missing : Resource}
    {typed : Path} {s s' : σ} {m : CompiledModule} (h : Compilation fs roots compile missing typed s (.ok m) s')
    {q : Resource} (hq : q ∈ m.siblings) : q.path ∈ m.emitted := by
  cases h with
  | compiled _ _ _ _ hcollect =>
    have hemitted := (of_collectEmitted_ok hcollect).2.1
    unfold collectEmitted at hcollect
    split at hcollect
    · cases hcollect
    · cases hcollect
      obtain ⟨file, hfile, rfl⟩ := List.mem_map.mp hq
      exact hemitted (List.mem_filter.mp hfile).1

namespace Build

variable {b : Build σ} {root : Root} {disk : σ} {registry : Registry} {r : Resource} {t u : Traversal σ} {fuel : Nat}

/-! ## Where paths come from -/

/-- What is accepted in the end was referred to by the root or a module that was read, was compiled with such a module,
or is attached by one. -/
theorem origin_of_accepted (h : b.run fuel (b.seed root disk registry) = some (none, t))
    (hr : r ∈ (b.settleAttachments t).accepted) :
    let reads := b.readsOf fuel (b.seed root disk registry)
    r ∈ b.referredIn root reads ∨ (∃ x ∈ reads, r ∈ x.siblings) ∨
      ∃ x ∈ reads, r ∈ b.attachedBy x.resource.path x.text := by
  intro reads
  obtain ⟨haccounted, -⟩ := accounted_of_run h
  have htraced := traced_of_run h
  rw [haccounted.settleAttachments_eq] at hr
  rcases List.mem_append.mp hr with hr | hr
  · rcases htraced.accepted r hr with hr | hr
    · exact Or.inl hr
    · exact Or.inr (Or.inl hr)
  · obtain ⟨x, hx, hr⟩ := List.mem_flatMap.mp (mem_of_mem_firstSeen (List.mem_filter.mp hr).1)
    exact Or.inr (Or.inr ⟨x, hx, hr⟩)

/-- The modules that are read can be visited. -/
theorem canVisit_of_mem_reads (hb : b.Anchored) (h : b.run fuel (b.seed root disk registry) = some (none, t)) :
    ∀ x ∈ b.readsOf fuel (b.seed root disk registry), b.CanVisit x.resource.path := by
  let visitable (reads : List Read) (t : Traversal σ) : Prop :=
    (∀ r ∈ t.pending, b.CanVisit r.path) ∧ ∀ x ∈ reads, b.CanVisit x.resource.path
  have hseed : visitable [] (b.seed root disk registry) :=
    ⟨fun r hr => canVisit_of_mem_pending_seed hb hr, fun x hx => nomatch hx⟩
  have hvisit : ∀ {reads : List Read} {r : Resource} {pending : List Resource} {t u : Traversal σ}, visitable reads t →
      t.pending = r :: pending → b.step r { t with pending } = (none, u) →
      visitable (reads ++ b.readOf r { t with pending }) u := by
    intro reads r pending t u ht hpending hstep
    refine ⟨canVisit_of_step hb hpending hstep ht.1, fun x hx => ?_⟩
    rcases List.mem_append.mp hx with hx | hx
    · exact ht.2 x hx
    · rw [(of_mem_readOf hx).1]
      exact ht.1 r (hpending ▸ List.mem_cons_self)
  exact (run_induction hvisit hseed h).1.2

/-- What references lead to can be visited. -/
theorem canVisit_of_mem_referredIn (hb : b.Anchored) {reads : List Read}
    (hreads : ∀ x ∈ reads, b.CanVisit x.resource.path) (hr : r ∈ b.referredIn root reads) : b.CanVisit r.path := by
  have hdirectory : b.workingDirectory.isAbsolute = true → b.roots.directory.isAbsolute = true := fun h => (hb h).1
  unfold referredIn at hr
  rcases List.mem_append.mp hr with hr | hr
  · rcases List.mem_append.mp hr with hr | hr
    · obtain ⟨source, -, hsource⟩ := List.mem_filterMap.mp hr
      exact canVisit_of_resource? hb hdirectory hsource
    · obtain ⟨name, -, hname⟩ := List.mem_filterMap.mp hr
      obtain ⟨reference, -, hreference⟩ := Option.bind_eq_some_iff.mp hname
      exact canVisit_of_resource? hb hdirectory hreference
  · obtain ⟨x, hx, hr⟩ := List.mem_flatMap.mp hr
    exact canVisit_of_mem_importedBy hb (hreads x hx) hr

/-- What has been compiled stays noted, and that includes the files that come with a module which is read. -/
theorem compiledFiles_of_step (h : b.step r t = (none, u)) :
    t.compiledFiles ⊆ u.compiledFiles ∧ ∀ x ∈ b.readOf r t, ∀ q ∈ x.siblings, q.path ∈ u.compiledFiles := by
  constructor
  · have heffect := effect_of_step h
    change t.footprint.compiledFiles ⊆ u.footprint.compiledFiles
    generalize u.footprint = f at heffect ⊢
    cases heffect with
    | nothing => exact List.Subset.refl _
    | recovered => exact List.subset_append_left _ _
  · intro x hx q hq
    unfold readOf at hx
    split at hx
    · cases hx
    · rename_i hpassed
      rw [Bool.not_eq_true, Bool.or_eq_false_iff] at hpassed
      have himport : r.isImport = true := by simpa using hpassed.2
      cases hread : b.obtainSource r (t.visit r.path) with
      | mk reading v =>
        rw [hread] at hx
        cases reading with
        | missing => cases hx
        | failed => cases hx
        | source text siblings =>
          rw [List.mem_singleton.mp hx] at hq
          have hfootprint := congrArg Footprint.compiledFiles (footprint_of_step hpassed.1 himport hread h)
          change u.compiledFiles = v.compiledFiles at hfootprint
          rw [hfootprint]
          cases obtained_of_obtainSource himport hread with
          | there => cases hq
          | compiled _ hcompile => exact List.mem_append_right _ (mem_emitted_of_mem_siblings hcompile hq)

/-- The files that were compiled with the modules that are read are noted. -/
theorem compiledFiles_of_run (h : b.run fuel (b.seed root disk registry) = some (none, t)) :
    ∀ x ∈ b.readsOf fuel (b.seed root disk registry), ∀ q ∈ x.siblings, q.path ∈ t.compiledFiles := by
  let noted (reads : List Read) (t : Traversal σ) : Prop := ∀ x ∈ reads, ∀ q ∈ x.siblings, q.path ∈ t.compiledFiles
  have hseed : noted [] (b.seed root disk registry) := fun x hx => nomatch hx
  have hvisit : ∀ {reads : List Read} {r : Resource} {pending : List Resource} {t u : Traversal σ}, noted reads t →
      t.pending = r :: pending → b.step r { t with pending } = (none, u) →
      noted (reads ++ b.readOf r { t with pending }) u := by
    intro reads r pending t u ht _ hstep x hx q hq
    obtain ⟨hbefore, hnew⟩ := compiledFiles_of_step hstep
    rcases List.mem_append.mp hx with hx | hx
    · exact hbefore (ht x hx q hq)
    · exact hnew x hx q hq
  exact (run_induction hvisit hseed h).1

/-! ## What resources are named after -/

theorem filename_of_resource? {roots : Roots} {origin : Path} {referent : Option Path} {kind : ResourceKind}
    {written reference : String} (h : resource? roots origin referent kind written reference = some r) :
    r.filename = roots.filename r.path r.anchor := by
  unfold resource? at h
  split at h
  · cases h
    rfl
  · cases h

theorem filename_of_attachedResource? {roots : Roots} {origin : Path} {referent : Option Path} {name : String}
    (h : attachedResource? roots origin referent name = some r) : r.filename = roots.filename r.path r.anchor := by
  obtain ⟨reference, -, hreference⟩ := Option.bind_eq_some_iff.mp h
  exact filename_of_resource? hreference

/-- The name of a resource is that of its file, as its reference is relative to the directory or the base. -/
theorem filename_of_accepted (h : b.run fuel (b.seed root disk registry) = some (none, t))
    (hr : r ∈ (b.settleAttachments t).accepted) : r.filename = b.roots.filename r.path r.anchor := by
  rcases origin_of_accepted h hr with hr | ⟨x, hx, hr⟩ | ⟨x, -, hr⟩
  · unfold referredIn at hr
    rcases List.mem_append.mp hr with hr | hr
    · rcases List.mem_append.mp hr with hr | hr
      · obtain ⟨source, -, hsource⟩ := List.mem_filterMap.mp hr
        exact filename_of_resource? hsource
      · obtain ⟨name, -, hname⟩ := List.mem_filterMap.mp hr
        exact filename_of_attachedResource? hname
    · obtain ⟨x, -, hr⟩ := List.mem_flatMap.mp hr
      obtain ⟨source, -, hsource⟩ := List.mem_filterMap.mp hr
      exact filename_of_resource? hsource
  · rw [((traced_of_run h).siblings x hx r hr).2]
    rfl
  · unfold attachedBy at hr
    split at hr
    · obtain ⟨name, -, hname⟩ := List.mem_filterMap.mp hr
      exact filename_of_attachedResource? hname
    · cases hr

/-- From an absolute working directory on, what is accepted has an absolute normal path, but for compiled files that are
reported otherwise. -/
theorem canonical_or_mem_of_accepted (hb : b.Anchored) (hworking : b.workingDirectory.isAbsolute = true)
    (h : b.run fuel (b.seed root disk registry) = some (none, t)) (hr : r ∈ (b.settleAttachments t).accepted) :
    r.path.Canonical ∨ r.path ∈ t.compiledFiles := by
  have hreads := canVisit_of_mem_reads hb h
  have hcanonical : b.CanVisit r.path → r.path.Canonical := by
    intro hvisit
    obtain ⟨p, hp⟩ := hvisit.normal
    rw [hp]
    exact Path.canonical_normalize (hp ▸ hvisit.absolute hworking)
  rcases origin_of_accepted h hr with hr | ⟨x, hx, hr⟩ | ⟨x, hx, hr⟩
  · exact Or.inl (hcanonical (canVisit_of_mem_referredIn hb hreads hr))
  · exact Or.inr (compiledFiles_of_run h x hx r hr)
  · exact Or.inl (hcanonical (canVisit_of_mem_attachedBy hb (hreads x hx) hr))

theorem Partitioned.distinct_accepted (h : b.Partitioned root t) : Distinct (t.accepted.map Resource.path) := by
  have hdistinct := (h.distinct.sublist (List.sublist_append_left _ _)).perm h.accounted
  rw [accountedPaths, List.append_assoc] at hdistinct
  exact hdistinct.sublist ((List.sublist_append_left _ _).trans (List.sublist_append_right _ _))

end Build

namespace Builder

variable {b : Builder σ} {root : Root} {s s' : BuildState σ} {fuel : Nat} {g : Graph}

/-- From an absolute working directory on, the resources of every graph have different paths as they are written, and
these are absolute and normal but for compiled files that are reported otherwise. The resources are as many different
files, with as many different names in the list of files, just if none of these shares its file or its name with another
resource. -/
theorem oneToOne_iff_of_build (hworking : b.workingDirectory.isAbsolute = true)
    (h : b.build fuel root s = some (.ok g, s')) :
    Distinct (g.resources.map Resource.path) ∧
    (∀ r ∈ g.resources, r.path.Canonical ∨ r.path ∈ g.compiledFiles) ∧
    (g.OneToOne b.workingDirectory ↔ ∀ r ∈ g.resources, ¬ r.path.Canonical → ∀ q ∈ g.resources, q ≠ r →
      q.path.absolute b.workingDirectory ≠ r.path.absolute b.workingDirectory ∧ q.filename ≠ r.filename) := by
  obtain ⟨t, u, hrun, rfl, -, rfl, -⟩ := exists_traversal h
  obtain ⟨rs, v, htrail, rfl, -⟩ := Build.exists_trail_of_run hrun
  have hanchored := Build.anchored_buildOf b root s.builds
  have hroots : (b.buildOf root s.builds).roots.Canonical :=
    Roots.canonical_make hworking root.directory b.config.projectRoot
  have hkept : ((b.buildOf root s.builds).graph ((b.buildOf root s.builds).settleAttachments u)).resources.Sublist
      ((b.buildOf root s.builds).settleAttachments u).accepted := List.filter_sublist
  have hfiles : ((b.buildOf root s.builds).settleAttachments u).compiledFiles = u.compiledFiles :=
    congrArg Footprint.compiledFiles ((b.buildOf root s.builds).footprint_settleAttachments u)
  have hpaths := htrail.toured.settleAttachments.distinct_accepted.sublist (hkept.map Resource.path)
  refine ⟨hpaths, fun r hr => ?_, ?_⟩
  · have horigin := Build.canonical_or_mem_of_accepted hanchored hworking hrun (hkept.subset hr)
    rw [← hfiles] at horigin
    exact horigin
  · have hnamed : ∀ r ∈ ((b.buildOf root s.builds).graph ((b.buildOf root s.builds).settleAttachments u)).resources,
        r.filename = (b.buildOf root s.builds).roots.filename r.path r.anchor :=
      fun r hr => Build.filename_of_accepted hrun (hkept.subset hr)
    exact Graph.oneToOne_iff hroots b.workingDirectory hpaths hnamed

end Builder

namespace ReportedRelative

def disk : Disk := .ofTexts [(["a.ts"], ""), (["b.ts"], "")]

/-- A compiler that reports one of the modules that it writes by a path from the working directory on. -/
def compiler : Compiler Disk
  | .list typed, d => (⟨true, "", [typed]⟩, d)
  | .emit _, d => (⟨true, "", [⟨"/a.js"⟩, ⟨"./b.js"⟩]⟩,
      (d.put ["a.js"] (.file (Text.encode "import './b.js'") false)).put ["b.js"] (.file [] false))

def builder : Builder Disk := { Builder.onDisk with compiler := some compiler }

def root : Root := .script "import './a.js'" ⟨"/"⟩

/-- The second module, as it is reported and as the first one imports it. -/
def second : List Resource := [
  ⟨"./b.js", none, "./b.js", .directory, .imported, ⟨"./b.js"⟩⟩,
  ⟨"./b.js", some ⟨"/a.js"⟩, "./b.js", .directory, .imported, ⟨"/b.js"⟩⟩]

/-- The second module is listed twice, under one name, and is packaged once. -/
theorem not_oneToOne : ∃ g s', builder.build 4 root ⟨disk, .empty, 0⟩ = some (.ok g, s') ∧
    second ⊆ g.resources ∧ ¬ g.OneToOne builder.workingDirectory := by
  have hresources : ((CompiledAside.resources? (builder.build 4 root ⟨disk, .empty, 0⟩)).filter (second ⊆ ·)).isSome =
      true := by decide +kernel
  obtain ⟨resources, hg⟩ := Option.isSome_iff_exists.mp hresources
  obtain ⟨hg, hsecond⟩ := Option.filter_eq_some_iff.mp hg
  obtain ⟨⟨result, s'⟩, hbuild, hg⟩ := Option.bind_eq_some_iff.mp hg
  cases result with
  | error e => cases hg
  | ok g =>
    cases hg
    have hlisted : second ⊆ g.resources := of_decide_eq_true hsecond
    obtain ⟨-, -, hiff⟩ := Builder.oneToOne_iff_of_build (by decide +kernel) hbuild
    refine ⟨g, s', hbuild, hlisted, fun h => ?_⟩
    have hrelative : ¬ (⟨"./b.js"⟩ : Path).Canonical :=
      fun hcanonical => absurd hcanonical.isAbsolute (by decide +kernel)
    have hreported := hiff.mp h _ (hlisted List.mem_cons_self) hrelative _
      (hlisted (List.mem_cons_of_mem _ List.mem_cons_self)) (by decide)
    exact hreported.2 rfl

end ReportedRelative

end CellGraph
