import CellGraph.Proofs.Footprint
import CellGraph.Proofs.Partition
import CellGraph.Proofs.Way

/-!
# Where references stand

A resource names the file that refers to it and the reference as it stands there, so the one, followed from the
directory of the other, should lead to the resource again (`Resource.FoundFrom`). For all that is found by reading it
does: every resource stems from a reference of the root or of a module that was read (`Build.Traced`). What was compiled
together with a missing module has a reference of its own making, from the directory of that module, but is said to be
referred to by the file that refers to the module. It is found from there just if the two directories are the same as
far up as the reference goes (`Builder.foundFrom_of_build`), and if not, it is not found
(`CompiledAside.not_foundFrom`).

Paths are texts here, so a reference that is made of a path says all of it. One that is made of a path that is no text
has replacement characters for what is none.
-/

namespace CellGraph

variable {σ : Type}

/-! ## References that lead to a resource -/

/-- The reference of a resource as it is to be followed. -/
def Resource.followed? (r : Resource) : Option String :=
  if r.isImport then some r.reference else attachmentReference? r.reference

/-- Whether the reference of a resource leads to it from a directory. -/
def Resource.FoundFrom (r : Resource) (roots : Roots) (origin : Path) : Prop :=
  ∃ reference target, r.followed? = some reference ∧ roots.resolve reference origin = .ok target ∧ target.path = r.path

/-- What a reference leads to has a normal path. -/
theorem Resource.FoundFrom.exists_normalize {r : Resource} {roots : Roots} {origin : Path}
    (h : r.FoundFrom roots origin) :
    ∃ p : Path, r.path = p.normalize := by
  obtain ⟨reference, target, -, htarget, hpath⟩ := h
  rw [← hpath]
  exact exists_normalize_of_resolve htarget

/-- The directory of a missing module, as files are compiled beside it. -/
def Resource.aside (r : Resource) : Path := r.path.parent?.getD ⟨"/"⟩

section References

variable {roots : Roots} {origin : Path} {referent : Option Path} {kind : ResourceKind} {written reference : String}
  {r : Resource}

theorem of_resource? (h : resource? roots origin referent kind written reference = some r) :
    r.referent = referent ∧ r.kind = kind ∧ r.reference = written ∧
      ∃ target, roots.resolve reference origin = .ok target ∧ target.path = r.path := by
  unfold resource? at h
  split at h
  · rename_i target htarget
    cases h
    exact ⟨rfl, rfl, rfl, target, htarget, rfl⟩
  · cases h

theorem foundFrom_of_importedResource? (h : importedResource? roots origin referent reference = some r) :
    r.referent = referent ∧ r.FoundFrom roots origin := by
  have himport := Build.isImport_of_importedResource? h
  obtain ⟨hreferent, -, rfl, target, htarget, hpath⟩ := of_resource? h
  exact ⟨hreferent, _, target, by rw [Resource.followed?, himport, if_pos rfl], htarget, hpath⟩

theorem foundFrom_of_attachedResource? {name : String} (h : attachedResource? roots origin referent name = some r) :
    r.referent = referent ∧ r.FoundFrom roots origin := by
  have himport := Build.isImport_of_attachedResource? h
  obtain ⟨reference, hname, hr⟩ := Option.bind_eq_some_iff.mp h
  obtain ⟨hreferent, -, rfl, target, htarget, hpath⟩ := of_resource? hr
  refine ⟨hreferent, reference, target, ?_, htarget, hpath⟩
  rw [Resource.followed?, himport, if_neg Bool.false_ne_true, hname]

end References

/-! ## References to compiled files -/

theorem exists_of_mem_joinSlashes {c : Char} {segments : List (List Char)} (h : c ∈ joinSlashes segments)
    (hc : c ≠ '/') :
    ∃ segment ∈ segments, c ∈ segment := by
  cases segments with
  | nil => cases h
  | cons first rest =>
    rw [joinSlashes_cons] at h
    rcases List.mem_append.mp h with h | h
    · exact ⟨first, List.mem_cons_self, h⟩
    · obtain ⟨segment, hs, h⟩ := List.mem_flatMap.mp h
      rcases List.mem_cons.mp h with h | h
      · exact absurd h hc
      · exact ⟨segment, List.mem_cons_of_mem _ hs, h⟩

section Siblings

variable {file origin : Path}

/-- A backslash in a path is one in a component. -/
theorem Path.Canonical.backslash_not_mem (h : file.Canonical) (hslash : '\\' ∉ file.chars) {c : Component}
    (hc : c ∈ file.components) : '\\' ∉ c.text.toList := by
  obtain ⟨names, hnames, hcomponents, hfile⟩ := h.exists_names
  rw [hfile, chars_ofComponents_root hnames.plain] at hslash
  rw [hcomponents] at hc
  intro hmem
  rcases List.mem_cons.mp hc with rfl | hc
  · exact absurd hmem (by decide)
  · exact hslash (List.mem_cons_of_mem _ (mem_joinSlashes_of_mem (List.mem_map_of_mem hc) hmem))

/-- A way without backslashes is written as it is. -/
theorem map_text_ofComponents {steps : List Component} (hplain : ∀ c ∈ steps, c.Plain)
    (hslash : ∀ c ∈ steps, '\\' ∉ c.text.toList) :
    (Path.ofComponents steps).text.map (fun c => if c = '\\' then '/' else c) = (Path.ofComponents steps).text := by
  refine String.ext ?_
  rw [String.toList_map]
  refine (List.map_congr_left fun c hc => if_neg ?_).trans (List.map_id _)
  rintro rfl
  change '\\' ∈ (Path.ofComponents steps).chars at hc
  rw [Path.chars_ofComponents hplain] at hc
  obtain ⟨segment, hsegment, hc⟩ := exists_of_mem_joinSlashes hc (by decide)
  obtain ⟨component, hcomponent, rfl⟩ := List.mem_map.mp hsegment
  exact hslash component hcomponent hc

/-- A reference that is made from a way starts with a point, and says what the way does. -/
theorem components_siblingReference {steps : List Component} (hfrom : file.from? origin = some (.ofComponents steps))
    (hplain : ∀ c ∈ steps, c.Plain) (hslash : ∀ c ∈ steps, '\\' ∉ c.text.toList) :
    (siblingReference file origin).toList.head? = some '.' ∧
      (⟨siblingReference file origin⟩ : Path).components.filter (· ≠ .current) = steps := by
  refine Path.components_reference hplain ?_
  unfold siblingReference
  rw [hfrom]
  dsimp only
  rw [map_text_ofComponents hplain hslash]

/-- The reference to a compiled file goes up and down as the way to it does. -/
theorem exists_siblingReference (hfile : file.Canonical) (horigin : origin.Canonical) (hslash : '\\' ∉ file.chars) :
    ∃ names, Path.Named names ∧ (siblingReference file origin).toList.head? = some '.' ∧
      (⟨siblingReference file origin⟩ : Path).components.filter (· ≠ .current) =
        List.replicate (file.stepsUp origin) .parent ++ names ∧
      file.components = Path.above (file.stepsUp origin) origin.components ++ names := by
  obtain ⟨names, hnames, hsubset, hfrom, hcomponents⟩ := hfile.exists_from? horigin
  have hsteps : ∀ c ∈ List.replicate (file.stepsUp origin) Component.parent ++ names,
      c.Plain ∧ '\\' ∉ c.text.toList := by
    intro c hc
    rcases List.mem_append.mp hc with hc | hc
    · rw [List.eq_of_mem_replicate hc]
      exact ⟨Path.plain_parent, by decide⟩
    · exact ⟨hnames.plain c hc, hfile.backslash_not_mem hslash (hsubset hc)⟩
  obtain ⟨hhead, hreference⟩ :=
    components_siblingReference hfrom (fun c hc => (hsteps c hc).1) fun c hc => (hsteps c hc).2
  exact ⟨names, hnames, hhead, hreference, hcomponents⟩

/-- From where the reference to a compiled file leads to it. -/
theorem foundFrom_siblingResource_iff {roots : Roots} {missing : Resource} (hfile : file.Canonical)
    (haside : missing.aside.Canonical) (hslash : '\\' ∉ file.chars) (origin : Path) :
    (siblingResource roots missing file).FoundFrom roots origin ↔
      Path.above (file.stepsUp missing.aside) origin.components =
        Path.above (file.stepsUp missing.aside) missing.aside.components := by
  obtain ⟨names, hnames, hhead, hsteps, hcomponents⟩ := exists_siblingReference hfile haside hslash
  have hfollowed : (siblingResource roots missing file).followed? = some (siblingReference file missing.aside) := rfl
  have hpath : (siblingResource roots missing file).path = file := rfl
  unfold Resource.FoundFrom
  rw [hfollowed, hpath]
  generalize siblingReference file missing.aside = reference at hhead hsteps ⊢
  have hrelative : (⟨reference⟩ : Path).isAbsolute = false := by simp [Path.isAbsolute, Path.chars, hhead]
  have hjoin := Path.normalComponents_join_way origin hrelative hnames hsteps
  have hresolve : roots.resolve reference origin = .ok ⟨(origin.join ⟨reference⟩).normalize, .directory⟩ := by
    obtain ⟨rest, hrest⟩ := List.head?_eq_some_iff.mp hhead
    simp only [Roots.resolve, resolve, Encoding.resolve, Encoding.characters, hrest]
  constructor
  · rintro ⟨followed, target, hreference, htarget, hfound⟩
    cases hreference
    cases hresolve.symm.trans htarget
    have hends := congrArg Path.components hfound
    rw [Path.components_normalize, hjoin, hcomponents] at hends
    exact List.append_cancel_right hends
  · intro habove
    refine ⟨reference, _, rfl, hresolve, ?_⟩
    rw [Path.normalize, hjoin, habove, ← hcomponents]
    exact hfile.eq_ofComponents.symm

/-- A compiled file is described by way of the module that was missing. -/
theorem eq_siblingResource_of_compilation {fs : FileSystem σ} {roots : Roots} {compile : Compiler σ}
    {missing : Resource}
    {typed : Path} {s s' : σ} {m : CompiledModule} (h : Compilation fs roots compile missing typed s (.ok m) s')
    {q : Resource} (hq : q ∈ m.siblings) : q = siblingResource roots missing q.path := by
  cases h with
  | compiled _ _ _ _ hcollect =>
    unfold collectEmitted at hcollect
    split at hcollect
    · cases hcollect
    · cases hcollect
      obtain ⟨file, -, rfl⟩ := List.mem_map.mp hq
      rfl

end Siblings

namespace Build

variable {b : Build σ} {root : Root} {r : Resource} {t u : Traversal σ}

/-- The directory that the reference of a resource stands in: that of the root, or of the file that refers to it. -/
def originOf (b : Build σ) (root : Root) (r : Resource) : Path :=
  match r.referent with
  | none => b.roots.directory
  | some p => if p.isAmong (b.rootPath root).toList then b.roots.directory else p.directory

/-- What the references lead to that are found by reading. -/
def referredIn (b : Build σ) (root : Root) (reads : List Read) : List Resource :=
  b.rootImports root ++ b.rootAttachments root ++ reads.flatMap fun x => b.importedBy x.resource.path x.text

/-- Where the resources of a traversal stem from that has read some modules: what waits and is read from references that
were read, and what was accepted from these too, or from a compiler. -/
structure Traced (b : Build σ) (root : Root) (reads : List Read) (t : Traversal σ) : Prop where
  pending : ∀ r ∈ t.pending, r ∈ b.referredIn root reads
  accepted : ∀ r ∈ t.accepted, r ∈ b.referredIn root reads ∨ ∃ x ∈ reads, r ∈ x.siblings
  read : ∀ x ∈ reads, x.resource ∈ b.referredIn root reads
  siblings : ∀ x ∈ reads, ∀ r ∈ x.siblings, b.compiler.isSome = true ∧ r = siblingResource b.roots x.resource r.path

/-- The files that were compiled with a missing module are described by way of that module. -/
theorem siblings_of_obtainSource (himport : r.isImport = true) {text : String} {siblings : List Resource}
    (h : b.obtainSource r t = (.source text siblings, u)) {q : Resource} (hq : q ∈ siblings) :
    b.compiler.isSome = true ∧ q = siblingResource b.roots r q.path := by
  cases obtained_of_obtainSource himport h with
  | there => cases hq
  | compiled hrecover hcompile =>
    exact ⟨by rw [hrecover.compiler]; rfl, eq_siblingResource_of_compilation hcompile hq⟩

theorem of_mem_readOf {x : Read} (hx : x ∈ b.readOf r t) :
    x.resource = r ∧ ∀ q ∈ x.siblings, b.compiler.isSome = true ∧ q = siblingResource b.roots r q.path := by
  unfold readOf at hx
  split at hx
  · cases hx
  · rename_i hpassed
    have himport : r.isImport = true := by
      rw [Bool.not_eq_true, Bool.or_eq_false_iff] at hpassed
      simpa using hpassed.2
    split at hx
    · rename_i hread
      rw [List.mem_singleton.mp hx]
      exact ⟨rfl, fun q hq => siblings_of_obtainSource himport (Prod.ext hread rfl) hq⟩
    · cases hx

theorem traced_seed (b : Build σ) (root : Root) (disk : σ) (registry : Registry) :
    b.Traced root [] (b.seed root disk registry) := by
  rw [seed_eq]
  refine ⟨fun r hr => ?_, by simp [Traversal.start], by simp, by simp⟩
  unfold referredIn
  rw [List.flatMap_nil, List.append_nil]
  exact mem_of_mem_firstSeen hr

theorem mem_referredIn_append {reads new : List Read} (h : r ∈ b.referredIn root reads) :
    r ∈ b.referredIn root (reads ++ new) := by
  unfold referredIn at h ⊢
  rw [List.flatMap_append, ← List.append_assoc]
  exact List.mem_append_left _ h

/-- What a visit lets wait and accepts stems from what it reads. -/
theorem Traced.step {reads : List Read} {pending : List Resource} (h : b.Traced root reads t)
    (ht : t.pending = r :: pending) (hstep : b.step r { t with pending } = (none, u)) :
    b.Traced root (reads ++ b.readOf r { t with pending }) u := by
  have hr : r ∈ b.referredIn root reads := h.pending r (ht ▸ List.mem_cons_self)
  have hpending : ∀ q ∈ pending, q ∈ b.referredIn root reads := fun q hq => h.pending q (ht ▸ List.mem_cons_of_mem _ hq)
  have hnew := fun x (hx : x ∈ b.readOf r { t with pending }) => of_mem_readOf hx
  have hvisited := visited_of_step hstep
  generalize b.readOf r { t with pending } = new at hvisited hnew ⊢
  have hread : ∀ x ∈ reads ++ new, x.resource ∈ b.referredIn root (reads ++ new) := by
    intro x hx
    rcases List.mem_append.mp hx with hx | hx
    · exact mem_referredIn_append (h.read x hx)
    · rw [(hnew x hx).1]
      exact mem_referredIn_append hr
  have hsiblings : ∀ x ∈ reads ++ new, ∀ q ∈ x.siblings,
      b.compiler.isSome = true ∧ q = siblingResource b.roots x.resource q.path := by
    intro x hx
    rcases List.mem_append.mp hx with hx | hx
    · exact h.siblings x hx
    · rw [(hnew x hx).1]
      exact (hnew x hx).2
  have hbefore : ∀ q ∈ t.accepted, q ∈ b.referredIn root (reads ++ new) ∨ ∃ x ∈ reads ++ new, q ∈ x.siblings := by
    intro q hq
    rcases h.accepted q hq with hq | ⟨x, hx, hq⟩
    · exact Or.inl (mem_referredIn_append hq)
    · exact Or.inr ⟨x, List.mem_append_left _ hx, hq⟩
  cases hvisited with
  | passed => exact ⟨fun q hq => mem_referredIn_append (hpending q hq), hbefore, hread, hsiblings⟩
  | checked =>
    rw [visitAttachment_eq]
    refine ⟨fun q hq => mem_referredIn_append (hpending q hq), fun q hq => ?_, hread, hsiblings⟩
    rcases List.mem_append.mp hq with hq | hq
    · exact hbefore q hq
    · rw [List.mem_singleton.mp (List.mem_filter.mp hq).1]
      exact Or.inl (mem_referredIn_append hr)
  | missing => exact ⟨fun q hq => mem_referredIn_append (hpending q hq), hbefore, hread, hsiblings⟩
  | read _ _ _ _ _ text siblings =>
    refine ⟨fun q hq => ?_, fun q hq => ?_, hread, hsiblings⟩
    · rcases List.mem_append.mp hq with hq | hq
      · exact mem_referredIn_append (hpending q hq)
      · exact List.mem_append_right _ (List.mem_flatMap.mpr
          ⟨⟨r, text, siblings⟩, List.mem_append_right _ List.mem_cons_self, mem_of_mem_firstSeen hq⟩)
    · rcases List.mem_append.mp hq with hq | hq
      · exact hbefore q hq
      · rcases List.mem_cons.mp hq with rfl | hq
        · exact Or.inl (mem_referredIn_append hr)
        · exact Or.inr
            ⟨⟨r, text, siblings⟩, List.mem_append_right _ List.mem_cons_self, mem_of_mem_firstSeen hq⟩

theorem traced_of_run {disk : σ} {registry : Registry} {fuel : Nat}
    (h : b.run fuel (b.seed root disk registry) = some (none, t)) :
    b.Traced root (b.readsOf fuel (b.seed root disk registry)) t := by
  have hrun := run_induction (P := b.Traced root) Traced.step (b.traced_seed root disk registry) h
  rw [List.nil_append] at hrun
  exact hrun.1

/-! ## Origins -/

/-- What the root refers to is found from its directory. -/
theorem originOf_of_root (h : r.referent = b.rootPath root) : b.originOf root r = b.roots.directory := by
  unfold originOf
  rw [h]
  cases b.rootPath root with
  | none => rfl
  | some p => simp

/-- What a module refers to is found from the directory of that module. -/
theorem originOf_of_module {p : Path} (h : r.referent = some p) (hp : p.isAmong (b.rootPath root).toList = false) :
    b.originOf root r = p.directory := by
  unfold originOf
  rw [h]
  simp [hp]

section Found

variable {reads : List Read} (hreads : ∀ x ∈ reads, x.resource.path.isAmong (b.rootPath root).toList = false)
include hreads

/-- What the references lead to that are found by reading is found from where they stand. -/
theorem foundFrom_of_mem_referredIn (h : r ∈ b.referredIn root reads) : r.FoundFrom b.roots (b.originOf root r) := by
  unfold referredIn at h
  rcases List.mem_append.mp h with h | h
  · rcases List.mem_append.mp h with h | h
    · obtain ⟨source, -, hsource⟩ := List.mem_filterMap.mp h
      obtain ⟨hreferent, hfound⟩ := foundFrom_of_importedResource? hsource
      rwa [originOf_of_root hreferent]
    · obtain ⟨name, -, hname⟩ := List.mem_filterMap.mp h
      obtain ⟨hreferent, hfound⟩ := foundFrom_of_attachedResource? hname
      rwa [originOf_of_root hreferent]
  · obtain ⟨x, hx, h⟩ := List.mem_flatMap.mp h
    obtain ⟨source, -, hsource⟩ := List.mem_filterMap.mp h
    obtain ⟨hreferent, hfound⟩ := foundFrom_of_importedResource? hsource
    rwa [originOf_of_module hreferent (hreads x hx)]

/-- What modules attach is found from where they are. -/
theorem foundFrom_of_mem_attachedBy {x : Read} (hx : x ∈ reads) (h : r ∈ b.attachedBy x.resource.path x.text) :
    r.FoundFrom b.roots (b.originOf root r) := by
  unfold attachedBy at h
  split at h
  · obtain ⟨name, -, hname⟩ := List.mem_filterMap.mp h
    obtain ⟨hreferent, hfound⟩ := foundFrom_of_attachedResource? hname
    rwa [originOf_of_module hreferent (hreads x hx)]
  · cases h

end Found

end Build

namespace Builder

variable {b : Builder σ} {root : Root} {s s' : BuildState σ} {fuel : Nat} {g : Graph}

/-- Every resource is found from where its reference stands, but for the files that a compiler wrote beside a missing
module. These are found from the directory of that module, and from that of the file which refers to it just if the two
are the same as far up as the reference goes. -/
theorem foundFrom_of_build (h : b.build fuel root s = some (.ok g, s')) :
    let build := b.buildOf root s.builds
    let reads := b.reads fuel root s
    (∀ r ∈ g.resources, (∀ x ∈ reads, r ∉ x.siblings) → r.FoundFrom build.roots (build.originOf root r)) ∧
    ∀ x ∈ reads, ∀ r ∈ x.siblings, b.compiler.isSome = true ∧ r.referent = x.resource.referent ∧
      (x.resource.path.isAbsolute = true → r.path.Canonical → '\\' ∉ r.path.chars →
        r.FoundFrom build.roots x.resource.aside ∧
        (r.FoundFrom build.roots (build.originOf root r) ↔
          Path.above (r.path.stepsUp x.resource.aside) (build.originOf root r).components =
            Path.above (r.path.stepsUp x.resource.aside) x.resource.aside.components)) := by
  intro build reads
  obtain ⟨t, u, hrun, rfl, -, rfl, -⟩ := exists_traversal h
  obtain ⟨haccounted, -⟩ := Build.accounted_of_run hrun
  have htraced := Build.traced_of_run hrun
  obtain ⟨rs, v, htrail, rfl, -⟩ := Build.exists_trail_of_run hrun
  have hreads : ∀ x ∈ reads, x.resource.path.isAmong (build.rootPath root).toList = false := by
    intro x hx
    exact htrail.toured.not_root (haccounted.read x hx).1
  constructor
  · intro r hr hsiblings
    have hr : r ∈ (build.settleAttachments u).accepted := (List.mem_filter.mp hr).1
    rw [haccounted.settleAttachments_eq] at hr
    rcases List.mem_append.mp hr with hr | hr
    · rcases htraced.accepted r hr with hr | ⟨x, hx, hr⟩
      · exact Build.foundFrom_of_mem_referredIn hreads hr
      · exact absurd hr (hsiblings x hx)
    · obtain ⟨x, hx, hr⟩ := List.mem_flatMap.mp (mem_of_mem_firstSeen (List.mem_filter.mp hr).1)
      exact Build.foundFrom_of_mem_attachedBy hreads hx hr
  · intro x hx r hr
    obtain ⟨hcompiler, hsibling⟩ := htraced.siblings x hx r hr
    have hreferent : r.referent = x.resource.referent := by rw [hsibling]; rfl
    refine ⟨hcompiler, hreferent, ?_⟩
    intro habsolute hcanonical hslash
    obtain ⟨p, hp⟩ := (Build.foundFrom_of_mem_referredIn hreads (htraced.read x hx)).exists_normalize
    have hmodule : x.resource.path.Canonical := by
      rw [hp] at habsolute ⊢
      exact Path.canonical_normalize habsolute
    have hfound := @foundFrom_siblingResource_iff r.path build.roots x.resource hcanonical hmodule.parent?_getD hslash
    rw [hsibling]
    exact ⟨(hfound _).mpr rfl, hfound _⟩

end Builder

/-! ## Files that are compiled in another directory -/

namespace CompiledAside

/-- A module that can be compiled, in a directory of its own. -/
def disk : Disk := (Disk.ofTexts [(["lib", "a.ts"], "")]).put ["lib"] .directory

/-- A compiler that writes a module and another one beside it. -/
def compiler : Compiler Disk
  | .list typed, d => (⟨true, "", [typed]⟩, d)
  | .emit _, d => (⟨true, "", [⟨"/lib/a.js"⟩, ⟨"/lib/b.js"⟩]⟩,
      (d.put ["lib", "a.js"] (.file [] false)).put ["lib", "b.js"] (.file [] false))

def builder : Builder Disk := { Builder.onDisk with compiler := some compiler }

def root : Root := .script "import './lib/a.js'" ⟨"/"⟩

/-- The second module, as the root would refer to it. -/
def second : Resource := ⟨"./lib/b.js", none, "./b.js", .directory, .imported, ⟨"/lib/b.js"⟩⟩

/-- The resources of a graph, if a build came to one. -/
def resources? (o : Outcome Disk Graph) : Option (List Resource) := o.bind fun x => x.1.toOption.map Graph.resources

/-- The second module is not found from where the root is, but from beside the first one. -/
theorem not_foundFrom : ∃ g s', builder.build 2 root ⟨disk, .empty, 0⟩ = some (.ok g, s') ∧ second ∈ g.resources ∧
    second.FoundFrom (builder.buildOf root 0).roots ⟨"/lib"⟩ ∧
    ¬ second.FoundFrom (builder.buildOf root 0).roots ((builder.buildOf root 0).originOf root second) := by
  have hresources : ((resources? (builder.build 2 root ⟨disk, .empty, 0⟩)).filter (second ∈ ·)).isSome = true := by
    decide +kernel
  have hreads : ((builder.reads 2 root ⟨disk, .empty, 0⟩).any fun x =>
      x.resource.path = ⟨"/lib/a.js"⟩ ∧ second ∈ x.siblings) = true := by decide +kernel
  obtain ⟨resources, hg⟩ := Option.isSome_iff_exists.mp hresources
  obtain ⟨hg, hsecond⟩ := Option.filter_eq_some_iff.mp hg
  obtain ⟨⟨result, s'⟩, hbuild, hg⟩ := Option.bind_eq_some_iff.mp hg
  obtain ⟨x, hx, hmodule⟩ := List.any_eq_true.mp hreads
  obtain ⟨hpath, hsibling⟩ := of_decide_eq_true hmodule
  cases result with
  | error e => cases hg
  | ok g =>
    cases hg
    obtain ⟨-, hsiblings⟩ := Builder.foundFrom_of_build hbuild
    obtain ⟨-, -, hfound⟩ := hsiblings x hx second hsibling
    have haside : x.resource.aside = ⟨"/lib"⟩ := by
      unfold Resource.aside
      rw [hpath]
      decide +kernel
    have horigin : (builder.buildOf root 0).originOf root second = ⟨"/"⟩ := by decide +kernel
    obtain ⟨hbeside, hiff⟩ :=
      hfound (by rw [hpath]; decide +kernel) ⟨by decide +kernel, by decide +kernel⟩ (by decide +kernel)
    rw [haside] at hbeside hiff
    refine ⟨g, s', hbuild, of_decide_eq_true hsecond, hbeside, ?_⟩
    intro hnot
    have habove := hiff.mp hnot
    rw [horigin] at habove
    exact absurd habove (by decide +kernel)

end CompiledAside

end CellGraph
