import CellGraph.Proofs.Dependence
import CellGraph.Proofs.Findings
import CellGraph.Proofs.Footprint

/-!
# Disks on which builds find the same

Modules that are compiled change the disk on the way of a build. Two builds on different disks find the same if at all
that the one looks up the same is found on related disks, and the disks stay related
(`Builder.findings_eq_of_foundAlike`). Disks that are the same in a part of the files are so related, if the compiler
works by that part alone and the build looks up nothing else (`Build.foundAlike_of_worksIn`).
-/

namespace CellGraph

variable {σ : Type}

/-! ## Disks on which the same is found -/

namespace Build

variable {b : Build σ} {id : String} {r : Resource} {t t' : Traversal σ} {fuel : Nat}

/-- What comes of reading a module on a disk, and the disk after it. -/
def look (b : Build σ) (r : Resource) (disk : σ) : Reading × σ :=
  let (reading, t) := b.obtainSource r (.start disk .empty none)
  (reading, t.disk)

/-- Reading a module is looking at the disk. -/
theorem obtainSource_eq_look (b : Build σ) (id : String) (r : Resource) (t : Traversal σ) :
    ((Build.obtainSource { b with id } r t).1, (Build.obtainSource { b with id } r t).2.disk) = b.look r t.disk := by
  unfold look obtainSource
  simp only [Traversal.start]
  split
  · rfl
  · split
    · split <;> rfl
    · rfl

/-- The name of a build has no part in what it looks at. -/
theorem look_named (b : Build σ) (id : String) (r : Resource) (disk : σ) :
    Build.look { b with id } r disk = b.look r disk := b.obtainSource_eq_look id r (.start disk .empty none)

/-- What a visit makes of the disk. -/
theorem disk_step (b : Build σ) (r : Resource) (t : Traversal σ) : (b.step r t).2.disk =
    if r.path.isAmong t.visited || !r.isImport then t.disk else (b.look r t.disk).2 := by
  cases hpath : r.path.isAmong t.visited with
  | true => simp [step_of_visited hpath]
  | false =>
    cases himport : r.isImport with
    | false =>
      rw [step_of_attachment hpath himport, visitAttachment_eq]
      simp [Traversal.visit]
    | true =>
      have hlook := congrArg Prod.snd (b.obtainSource_eq_look b.id r (t.visit r.path))
      rw [step_of_import hpath himport, visitImport]
      cases hread : b.obtainSource r (t.visit r.path) with
      | mk reading u =>
        change (b.obtainSource r (t.visit r.path)).2.disk = (b.look r t.disk).2 at hlook
        rw [hread] at hlook
        simp only [Bool.not_true, Bool.or_false, Bool.false_eq_true, if_false, ← hlook]
        cases reading with
        | failed e => rfl
        | missing reason => rfl
        | source text siblings =>
          cases hdialect : b.config.dialect? r.path with
          | none => rfl
          | some dialect =>
            simp only [b.expand_eq hdialect, Traversal.foldl_adopt]
            rfl

/-- Whether the same is found at resources on related disks, which stay related. -/
structure FoundAlike (b : Build σ) (P : Resource → Prop) (R : σ → σ → Prop) : Prop where
  isFile : ∀ {r : Resource} {disk disk' : σ}, P r → R disk disk' →
    b.files.isFile r.path disk' = b.files.isFile r.path disk
  look : ∀ {r : Resource} {disk disk' : σ}, P r → R disk disk' →
    (b.look r disk').1 = (b.look r disk).1 ∧ R (b.look r disk).2 (b.look r disk').2

section FoundAlike

variable {P : Resource → Prop} {R : σ → σ → Prop} (h : b.FoundAlike P R)
include h

theorem FoundAlike.finding_eq (hcourse : t'.course = t.course) (hdisk : R t.disk t'.disk) (hr : P r) :
    Build.finding { b with id } r t' = b.finding r t := by
  have hlook := congrArg Prod.fst (b.obtainSource_eq_look b.id r (t.visit r.path))
  have hlook' := congrArg Prod.fst (b.obtainSource_eq_look id r (t'.visit r.path))
  have hreading : (Build.obtainSource { b with id } r (t'.visit r.path)).1 = (b.obtainSource r (t.visit r.path)).1 :=
    hlook'.trans ((h.look hr hdisk).1.trans hlook.symm)
  unfold finding
  rw [hreading, Traversal.knownPaths_eq_of_course hcourse, h.isFile hr hdisk]

theorem FoundAlike.disk_step (hcourse : t'.course = t.course) (hdisk : R t.disk t'.disk) (hr : P r) :
    R (b.step r t).2.disk (Build.step { b with id } r t').2.disk := by
  rw [Build.disk_step, Build.disk_step, b.look_named id, Traversal.visited_eq_of_course hcourse]
  split
  · exact hdisk
  · exact (h.look hr hdisk).2

/-- Runs on related disks find the same, if they do at what the first one visits, and leave related disks. -/
theorem FoundAlike.run (id : String) (hcourse : t'.course = t.course) (hdisk : R t.disk t'.disk)
    (hvisits : ∀ r ∈ b.visitsOf fuel t, P r) :
    Build.visitFindings { b with id } fuel t' = b.visitFindings fuel t ∧
    ∀ {result result' : Option BuildError × Traversal σ}, b.run fuel t = some result →
      Build.run { b with id } fuel t' = some result' → R result.2.disk result'.2.disk := by
  induction fuel generalizing t t' with
  | zero =>
    refine ⟨rfl, fun {result result'} hresult hresult' => ?_⟩
    rw [Build.run] at hresult hresult'
    split at hresult <;> split at hresult' <;> cases hresult <;> cases hresult'
    exact hdisk
  | succ fuel ih =>
    rw [Build.run, Build.run, visitFindings, visitFindings, Traversal.pending_eq_of_course hcourse]
    rw [visitsOf] at hvisits
    cases ht : t.pending with
    | nil =>
      refine ⟨rfl, fun {result result'} hresult hresult' => ?_⟩
      cases hresult
      cases hresult'
      exact hdisk
    | cons r pending =>
      have hcourse' := Traversal.course_with_pending hcourse pending
      simp only [ht] at hvisits ⊢
      have hr : P r := hvisits r (by split <;> exact List.mem_cons_self)
      have hfinding : Build.finding { b with id } r { t' with pending } = b.finding r { t with pending } :=
        h.finding_eq hcourse' hdisk hr
      obtain ⟨herror, hstep⟩ := step_alike hcourse' hfinding
      have hdisk' : R (b.step r { t with pending }).2.disk (Build.step { b with id } r { t' with pending }).2.disk :=
        h.disk_step hcourse' hdisk hr
      cases hb : b.step r { t with pending } with
      | mk error u =>
        cases hb' : Build.step { b with id } r { t' with pending } with
        | mk error' u' =>
          rw [hb, hb'] at herror hstep hdisk'
          simp only at herror hstep
          subst herror
          simp only [hb] at hvisits
          rw [hfinding]
          cases error' with
          | some e =>
            refine ⟨rfl, fun {result result'} hresult hresult' => ?_⟩
            cases hresult
            cases hresult'
            exact hdisk'
          | none =>
            obtain ⟨hfindings, hresults⟩ := ih hstep hdisk' fun x hx => hvisits x (List.mem_cons_of_mem _ hx)
            exact ⟨congrArg _ hfindings, hresults⟩

/-- What is looked up when a run has ended. -/
def settledLookups (b : Build σ) : Option (Option BuildError × Traversal σ) → List Resource
  | some (none, t) => b.unsettled t
  | _ => []

/-- The resources that a run looks up: those that it visits, and in the end what modules attach. -/
def lookupsOf (b : Build σ) (fuel : Nat) (t : Traversal σ) : List Resource :=
  b.visitsOf fuel t ++ b.settledLookups (b.run fuel t)

/-- Runs on related disks find the same, if they do at what the first one looks up. -/
theorem FoundAlike.findingsOf_eq (id : String) (hcourse : t'.course = t.course) (hdisk : R t.disk t'.disk)
    (hlookups : ∀ r ∈ b.lookupsOf fuel t, P r) : Build.findingsOf { b with id } fuel t' = b.findingsOf fuel t := by
  obtain ⟨hvisits, hdisks⟩ := h.run id hcourse hdisk fun r hr => hlookups r (List.mem_append_left _ hr)
  have hsettled : ∀ r ∈ b.settledLookups (b.run fuel t), P r := fun r hr => hlookups r (List.mem_append_right _ hr)
  have hfindings : Build.visitFindings { b with id } fuel t' ++ [] = b.visitFindings fuel t ++ [] := by rw [hvisits]
  obtain ⟨hend, -⟩ := run_alike hcourse hfindings
  unfold findingsOf
  rw [hvisits]
  generalize b.run fuel t = result at hsettled hdisks hend ⊢
  generalize Build.run { b with id } fuel t' = result' at hdisks hend ⊢
  cases hend with
  | unfinished => rfl
  | @ended error u u' hcourse =>
    cases error with
    | some e => rfl
    | none =>
      refine congrArg (b.visitFindings fuel t ++ ·) ?_
      rw [settledFindings, settledFindings, unsettled_eq_of_course hcourse]
      refine List.map_congr_left fun r hr => ?_
      exact congrArg Finding.attachment (h.isFile (hsettled r hr) (hdisks rfl rfl))

end FoundAlike

end Build

namespace Builder

variable {b : Builder σ} {root : Root} {s s' : BuildState σ} {fuel : Nat}

/-- The resources that a build looks up. -/
def lookups (b : Builder σ) (fuel : Nat) (root : Root) (s : BuildState σ) : List Resource :=
  (b.buildOf root s.builds).lookupsOf fuel ((b.buildOf root s.builds).seed root s.disk s.registry)

/-- Builds find the same on related disks if they do at what the first one looks up. -/
theorem findings_eq_of_foundAlike {P : Resource → Prop} {R : σ → σ → Prop}
    (h : (b.buildOf root s.builds).FoundAlike P R) (hdisk : R s.disk s'.disk)
    (hlookups : ∀ r ∈ b.lookups fuel root s, P r) : b.findings fuel root s' = b.findings fuel root s := by
  have hcourse :=
    (b.buildOf root s.builds).course_seed (root.buildId s'.builds) root s.disk s'.disk s.registry s'.registry
  have hseed : R ((b.buildOf root s.builds).seed root s.disk s.registry).disk
      ((b.buildOf root s'.builds).seed root s'.disk s'.registry).disk := by
    rw [Build.seed_eq, Build.seed_eq]
    exact hdisk
  exact h.findingsOf_eq _ hcourse hseed hlookups

end Builder

/-! ## Parts of the files -/

/-- Whether two disks are the same in a part of the files. -/
def FileSystem.AgreeOn (fs : FileSystem σ) (P : Path → Prop) (disk disk' : σ) : Prop :=
  ∀ p, P p → fs.readText p disk' = fs.readText p disk ∧ fs.isFile p disk' = fs.isFile p disk

/-- The sources that a compiler is asked for. -/
def CompilerRequest.sources : CompilerRequest → List Path
  | list source => [source]
  | emit sources => sources

/-- Whether a compiler, asked for sources in a part of the files, names others that are in it, and answers and writes
there by nothing but what is in it. -/
structure WorksIn (fs : FileSystem σ) (P : Path → Prop) (compile : Compiler σ) : Prop where
  listed : ∀ {p : Path} {disk : σ}, P p → ∀ f ∈ (compile (.list p) disk).1.files, P f
  answer : ∀ {request : CompilerRequest} {disk disk' : σ}, (∀ p ∈ request.sources, P p) → fs.AgreeOn P disk disk' →
    (compile request disk').1 = (compile request disk).1
  written : ∀ {request : CompilerRequest} {disk disk' : σ}, (∀ p ∈ request.sources, P p) → fs.AgreeOn P disk disk' →
    fs.AgreeOn P (compile request disk).2 (compile request disk').2

section Parts

variable {fs : FileSystem σ} {P : Path → Prop} {compile : Compiler σ} {disk disk' : σ}

theorem collectEmitted_of_agreeOn (hagree : fs.AgreeOn P disk disk') (roots : Roots) {missing : Resource}
    (hmissing : P missing.path) (files : List Path) :
    collectEmitted fs roots missing files disk' = collectEmitted fs roots missing files disk := by
  unfold collectEmitted
  rw [(hagree _ hmissing).1]

/-- A module is compiled alike where a compiler works in a part of the files and they agree on it. -/
theorem WorksIn.compileModule (h : WorksIn fs P compile) (hagree : fs.AgreeOn P disk disk') (roots : Roots)
    {missing : Resource} {typed : Path} (hmissing : P missing.path) (htyped : P typed) :
    (compileModule fs roots compile missing typed disk').1 = (compileModule fs roots compile missing typed disk).1 ∧
    fs.AgreeOn P (compileModule fs roots compile missing typed disk).2
      (compileModule fs roots compile missing typed disk').2 := by
  have hlist : ∀ p ∈ (CompilerRequest.list typed).sources, P p := fun p hp => List.mem_singleton.mp hp ▸ htyped
  have hanswer := h.answer hlist hagree
  have hagree₁ := h.written hlist hagree
  have hlisted : ∀ f ∈ (compile (.list typed) disk).1.files, P f := h.listed htyped
  unfold CellGraph.compileModule
  cases hcompile : compile (.list typed) disk with
  | mk listed s =>
    cases hcompile' : compile (.list typed) disk' with
    | mk listed' s' =>
      rw [hcompile, hcompile'] at hanswer hagree₁
      simp only at hanswer hagree₁
      rw [hcompile] at hlisted
      subst hanswer
      have hemit : ∀ p ∈ (CompilerRequest.emit (sourcesToEmit typed listed')).sources, P p := by
        intro p hp
        change p ∈ sourcesToEmit typed listed' at hp
        unfold sourcesToEmit at hp
        split at hp
        · rwa [List.mem_singleton.mp hp]
        · exact hlisted p hp
      have hanswer₁ := h.answer hemit hagree₁
      have hagree₂ := h.written hemit hagree₁
      have hfiles := fun files => collectEmitted_of_agreeOn hagree₂ roots hmissing files
      simp only [← sourcesToEmit.eq_1, hanswer₁, hfiles]
      split
      · exact ⟨rfl, hagree₁⟩
      · split
        · exact ⟨rfl, hagree₂⟩
        · exact ⟨rfl, hagree₂⟩

/-- A module is recovered alike where the compiler works in a part of the files and they agree on it. -/
theorem recover_of_worksIn {compiler : Option (Compiler σ)}
    (h : ∀ compile, compiler = some compile → WorksIn fs P compile)
    (hagree : fs.AgreeOn P disk disk') (config : Configuration) (roots : Roots) {missing : Resource}
    (hmissing : P missing.path) (htyped : P (missing.path.withExtension config.typedExtension)) :
    (recover fs config roots compiler missing disk').1 = (recover fs config roots compiler missing disk).1 ∧
    fs.AgreeOn P (recover fs config roots compiler missing disk).2
      (recover fs config roots compiler missing disk').2 := by
  unfold recover
  cases compiler with
  | none => exact ⟨rfl, hagree⟩
  | some compile =>
    obtain ⟨hresult, hwritten⟩ := (h compile rfl).compileModule hagree roots hmissing htyped
    simp only [(hagree _ htyped).2]
    split
    · generalize compileModule fs roots compile missing (missing.path.withExtension config.typedExtension) disk =
        compiled at hresult hwritten ⊢
      generalize compileModule fs roots compile missing (missing.path.withExtension config.typedExtension) disk' =
        compiled' at hresult hwritten ⊢
      obtain ⟨result, s⟩ := compiled
      obtain ⟨result', s'⟩ := compiled'
      obtain rfl : result' = result := hresult
      cases result' <;> exact ⟨rfl, hwritten⟩
    · exact ⟨rfl, hagree⟩

end Parts

namespace Build

variable {b : Build σ}

/-- On one disk the same is found. -/
theorem foundAlike_eq (b : Build σ) : b.FoundAlike (fun _ => True) Eq where
  isFile := by
    rintro r disk _ - rfl
    rfl
  look := by
    rintro r disk _ - rfl
    exact ⟨rfl, rfl⟩

/-- The same is found in a part of the files that the compiler works in, on disks that are the same there. -/
theorem foundAlike_of_worksIn {P : Path → Prop} (h : ∀ compile, b.compiler = some compile → WorksIn b.files P compile) :
    b.FoundAlike (fun r => P r.path ∧ P (b.typedPath r)) (b.files.AgreeOn P) where
  isFile := fun hr hagree => (hagree _ hr.1).2
  look := by
    intro r disk disk' hr hagree
    obtain ⟨hresult, hwritten⟩ := recover_of_worksIn h hagree b.config b.roots hr.1 hr.2
    unfold look obtainSource
    simp only [Traversal.start]
    rw [(hagree _ hr.1).1]
    cases b.files.readText r.path disk with
    | ok text => exact ⟨rfl, hagree⟩
    | error reason =>
      cases b.config.isRecoverable r.path with
      | false => exact ⟨rfl, hagree⟩
      | true =>
        generalize recover b.files b.config b.roots b.compiler r disk = recovered at hresult hwritten ⊢
        generalize recover b.files b.config b.roots b.compiler r disk' = recovered' at hresult hwritten ⊢
        obtain ⟨result, s⟩ := recovered
        obtain ⟨result', s'⟩ := recovered'
        obtain rfl : result' = result := hresult
        rcases result' with _ | _ | _ <;> exact ⟨rfl, hwritten⟩

end Build

end CellGraph
