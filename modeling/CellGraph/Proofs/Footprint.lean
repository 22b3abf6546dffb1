import CellGraph.Proofs.Progress

/-!
# What a build leaves behind

Beside its graph a build leaves files that were compiled, and what is registered of them. This is the `Footprint` of a
traversal. Only recoveries change it: `Compilation` lists the ways that compiling a module can go, by the requests to
the compiler, and `Effect` what follows for the footprint of a visit (`effect_of_step`), also of one that fails the
build. What all effects of visits keep holds behind every trail (`Trail.footprint_induction`), and a build ends there or
with the effect of one more visit (`Builder.exists_footprint`).
-/

namespace CellGraph

variable {σ : Type}

/-! ## Compiling a module -/

/-- The sources that a compiler is asked to write the modules of: those it listed, or the typed one alone. -/
def sourcesToEmit (typed : Path) (listed : CompilerAnswer) : List Path :=
  if listed.files = [] then [typed] else listed.files

/-- How compiling a missing module can go: the compiler lists sources and writes their modules, and each can fail; in
the end the module can be read or it cannot. -/
inductive Compilation (fs : FileSystem σ) (roots : Roots) (compile : Compiler σ) (missing : Resource) (typed : Path)
    (s : σ) : Except String CompiledModule → σ → Prop
  | unlisted {listed : CompilerAnswer} {s₁ : σ} (hlist : compile (.list typed) s = (listed, s₁))
      (hlisted : listed.success = false) : Compilation fs roots compile missing typed s (.error listed.output) s₁
  | unwritten {listed emitted : CompilerAnswer} {s₁ s₂ : σ} (hlist : compile (.list typed) s = (listed, s₁))
      (hlisted : listed.success = true) (hemit : compile (.emit (sourcesToEmit typed listed)) s₁ = (emitted, s₂))
      (hemitted : emitted.success = false) :
      Compilation fs roots compile missing typed s (.error emitted.output) s₂
  | unreadable {listed emitted : CompilerAnswer} {s₁ s₂ : σ} (hlist : compile (.list typed) s = (listed, s₁))
      (hlisted : listed.success = true) (hemit : compile (.emit (sourcesToEmit typed listed)) s₁ = (emitted, s₂))
      (hemitted : emitted.success = true) {output : String}
      (hcollect : collectEmitted fs roots missing emitted.files s₂ = .error output) :
      Compilation fs roots compile missing typed s (.error output) s₂
  | compiled {listed emitted : CompilerAnswer} {s₁ s₂ : σ} (hlist : compile (.list typed) s = (listed, s₁))
      (hlisted : listed.success = true) (hemit : compile (.emit (sourcesToEmit typed listed)) s₁ = (emitted, s₂))
      (hemitted : emitted.success = true) {m : CompiledModule}
      (hcollect : collectEmitted fs roots missing emitted.files s₂ = .ok m) :
      Compilation fs roots compile missing typed s (.ok m) s₂

theorem compilation_of_compileModule {fs : FileSystem σ} {roots : Roots} {compile : Compiler σ} {missing : Resource}
    {typed : Path} {s s' : σ} {result : Except String CompiledModule}
    (h : compileModule fs roots compile missing typed s = (result, s')) :
    Compilation fs roots compile missing typed s result s' := by
  unfold compileModule at h
  cases hlist : compile (.list typed) s with
  | mk listed s₁ =>
    rw [hlist] at h
    cases hlisted : listed.success with
    | false =>
      simp only [hlisted, Bool.not_false, if_true, Prod.mk.injEq] at h
      obtain ⟨rfl, rfl⟩ := h
      exact .unlisted hlist hlisted
    | true =>
      cases hemit : compile (.emit (sourcesToEmit typed listed)) s₁ with
      | mk emitted s₂ =>
        have hemit' := hemit
        unfold sourcesToEmit at hemit'
        cases hemitted : emitted.success with
        | false =>
          simp only [hlisted, hemit', hemitted, Bool.not_true, Bool.not_false, Bool.false_eq_true, if_false, if_true,
            Prod.mk.injEq] at h
          obtain ⟨rfl, rfl⟩ := h
          exact .unwritten hlist hlisted hemit hemitted
        | true =>
          simp only [hlisted, hemit', hemitted, Bool.not_true, Bool.false_eq_true, if_false, Prod.mk.injEq] at h
          obtain ⟨hcollect, rfl⟩ := h
          cases result with
          | ok m => exact .compiled hlist hlisted hemit hemitted hcollect
          | error output => exact .unreadable hlist hlisted hemit hemitted hcollect

/-- What is to be said of a module that is not there after it was compiled. -/
theorem eq_of_collectEmitted_error {fs : FileSystem σ} {roots : Roots} {missing : Resource} {files : List Path} {s : σ}
    {output : String} (h : collectEmitted fs roots missing files s = .error output) :
    ∃ reason, fs.readText missing.path s = .error reason ∧ output =
      "compilation succeeded but " ++ missing.path.text ++ " could not be read: " ++ reason.message := by
  unfold collectEmitted at h
  split at h
  · rename_i reason hread
    cases h
    exact ⟨reason, hread, rfl⟩
  · cases h

/-- A compiled module can be read, and its files are those that were reported, with its own. -/
theorem of_collectEmitted_ok {fs : FileSystem σ} {roots : Roots} {missing : Resource} {files : List Path} {s : σ}
    {m : CompiledModule} (h : collectEmitted fs roots missing files s = .ok m) :
    fs.readText missing.path s = .ok m.source ∧ files ⊆ m.emitted ∧ ∀ f ∈ m.emitted, f ∈ files ∨ f = missing.path := by
  unfold collectEmitted at h
  split at h
  · cases h
  · rename_i source hread
    cases h
    refine ⟨hread, ?_, ?_⟩
    · dsimp only
      split
      · exact List.Subset.refl _
      · exact List.subset_append_left _ _
    · intro f hf
      dsimp only at hf
      split at hf
      · exact Or.inl hf
      · exact (List.mem_append.mp hf).imp id List.mem_singleton.mp

/-- At least the module itself is written. -/
theorem Compilation.emitted_ne_nil {fs : FileSystem σ} {roots : Roots} {compile : Compiler σ} {missing : Resource}
    {typed : Path} {s s' : σ} {m : CompiledModule} (h : Compilation fs roots compile missing typed s (.ok m) s') :
    m.emitted ≠ [] := by
  cases h with
  | compiled _ _ _ _ hcollect =>
    unfold collectEmitted at hcollect
    split at hcollect
    · cases hcollect
    · cases hcollect
      dsimp only
      split
      · rename_i hmissing
        obtain ⟨f, hf, -⟩ := List.any_eq_true.mp hmissing
        exact List.ne_nil_of_mem hf
      · exact List.append_ne_nil_of_right_ne_nil _ (List.cons_ne_nil _ _)

/-! ## Footprints -/

/-- What a build leaves behind: the files, the registry, and which files were compiled for it. -/
structure Footprint (σ : Type) where
  disk : σ
  registry : Registry
  compiledFiles : List Path

/-- What a traversal has left behind so far. -/
def Traversal.footprint (t : Traversal σ) : Footprint σ := ⟨t.disk, t.registry, t.compiledFiles⟩

namespace Build

variable {b : Build σ} {r : Resource} {t u : Traversal σ}

/-- The typed source that a missing module is compiled from. -/
def typedPath (b : Build σ) (r : Resource) : Path := r.path.withExtension b.config.typedExtension

/-- Whether a resource is to be recovered by a compiler: it cannot be read, its extension allows for it, and its typed
source is there. -/
structure ToRecover (b : Build σ) (r : Resource) (compile : Compiler σ) (disk : σ) : Prop where
  isImport : r.isImport = true
  unreadable : ∃ reason, b.files.readText r.path disk = .error reason
  recoverable : b.config.isRecoverable r.path = true
  compiler : b.compiler = some compile
  typed : b.files.isFile (b.typedPath r) disk = true

/-- The files of a footprint after a module has been compiled. -/
def leaveEmitted (b : Build σ) (emitted : List Path) (disk : σ) (f : Footprint σ) : Footprint σ where
  disk
  registry := if b.registers then f.registry.register b.id emitted else f.registry
  compiledFiles := f.compiledFiles ++ emitted

/-- Whether a visit goes well, or fails because its resource lacks a dialect. -/
def GoesOn (r : Resource) (error : Option BuildError) : Prop := error = none ∨ error = some (.unknownDialect r.path)

/-- What a visit leaves behind. Without a recovery that is nothing, and one that fails leaves the files that were
written on the way. -/
inductive Effect (b : Build σ) (r : Resource) (f : Footprint σ) : Option BuildError → Footprint σ → Prop
  | nothing {error : Option BuildError} (herror : GoesOn r error) : Effect b r f error f
  | failed {compile : Compiler σ} {output : String} {disk : σ} (hrecover : b.ToRecover r compile f.disk)
      (hcompile : Compilation b.files b.roots compile r (b.typedPath r) f.disk (.error output) disk) :
      Effect b r f (some (.compileFailure (b.typedPath r) r.reference r.referent output)) { f with disk }
  | recovered {compile : Compiler σ} {m : CompiledModule} {disk : σ} {error : Option BuildError}
      (hrecover : b.ToRecover r compile f.disk)
      (hcompile : Compilation b.files b.roots compile r (b.typedPath r) f.disk (.ok m) disk)
      (herror : GoesOn r error) : Effect b r f error (b.leaveEmitted m.emitted disk f)

/-! ## Visits -/

/-- What came of reading a module, as an error of a visit that reads it. -/
def Reading.error? : Reading → Option BuildError
  | failed e => some e
  | _ => none

/-- How reading a module can go: it is there, or it is not and is not to be recovered, or compiling it fails, or it is
compiled. -/
inductive Obtained (b : Build σ) (r : Resource) (t : Traversal σ) : Reading → Traversal σ → Prop
  | there {text : String} (hread : b.files.readText r.path t.disk = .ok text) : Obtained b r t (.source text []) t
  | absent {reason : SystemError} (hread : b.files.readText r.path t.disk = .error reason) :
      Obtained b r t (.missing reason) t
  | failed {compile : Compiler σ} {output : String} {disk : σ} (hrecover : b.ToRecover r compile t.disk)
      (hcompile : Compilation b.files b.roots compile r (b.typedPath r) t.disk (.error output) disk) :
      Obtained b r t (.failed (.compileFailure (b.typedPath r) r.reference r.referent output)) { t with disk }
  | compiled {compile : Compiler σ} {m : CompiledModule} {disk : σ} (hrecover : b.ToRecover r compile t.disk)
      (hcompile : Compilation b.files b.roots compile r (b.typedPath r) t.disk (.ok m) disk) :
      Obtained b r t (.source m.source m.siblings) (b.keepEmitted m.emitted { t with disk })

/-- Reading an import goes in one of these ways. -/
theorem obtained_of_obtainSource (himport : r.isImport = true) {reading : Reading}
    (h : b.obtainSource r t = (reading, u)) : Obtained b r t reading u := by
  unfold obtainSource at h
  cases hread : b.files.readText r.path t.disk with
  | ok text =>
    rw [hread] at h
    cases h
    exact .there hread
  | error reason =>
    rw [hread] at h
    cases hrecoverable : b.config.isRecoverable r.path with
    | false =>
      simp only [hrecoverable, Bool.false_eq_true, if_false] at h
      cases h
      exact .absent hread
    | true =>
      unfold recover at h
      cases hcompiler : b.compiler with
      | none =>
        simp only [hrecoverable, hcompiler, if_true] at h
        cases h
        exact .absent hread
      | some compile =>
        cases htyped : b.files.isFile (r.path.withExtension b.config.typedExtension) t.disk with
        | false =>
          simp only [hrecoverable, hcompiler, htyped, Bool.false_eq_true, if_false, if_true] at h
          cases h
          exact .absent hread
        | true =>
          have hrecover : b.ToRecover r compile t.disk := ⟨himport, ⟨reason, hread⟩, hrecoverable, hcompiler, htyped⟩
          cases hcompile : compileModule b.files b.roots compile r (r.path.withExtension b.config.typedExtension)
              t.disk with
          | mk result disk =>
            have hcompilation := compilation_of_compileModule hcompile
            simp only [hrecoverable, hcompiler, htyped, hcompile, if_true] at h
            cases result with
            | error output =>
              cases h
              exact .failed hrecover hcompilation
            | ok m =>
              cases h
              exact .compiled hrecover hcompilation

/-- What reading a module leaves behind. -/
theorem Obtained.effect {reading : Reading} (h : Obtained b r t reading u) :
    Effect b r t.footprint reading.error? u.footprint := by
  cases h with
  | there => exact .nothing (Or.inl rfl)
  | absent => exact .nothing (Or.inl rfl)
  | failed hrecover hcompile => exact .failed (f := t.footprint) hrecover hcompile
  | compiled hrecover hcompile => exact .recovered (f := t.footprint) hrecover hcompile (Or.inl rfl)

/-- An effect that fails nothing is one of a resource that lacks a dialect, too. -/
theorem Effect.unknownDialect {f f' : Footprint σ} (h : Effect b r f none f') :
    Effect b r f (some (.unknownDialect r.path)) f' := by
  cases h with
  | nothing => exact .nothing (Or.inr rfl)
  | recovered hrecover hcompile => exact .recovered hrecover hcompile (Or.inr rfl)

/-- What a visit leaves behind. -/
theorem effect_of_step {error : Option BuildError} (h : b.step r t = (error, u)) :
    Effect b r t.footprint error u.footprint := by
  cases hpath : r.path.isAmong t.visited with
  | true =>
    rw [step_of_visited hpath] at h
    cases h
    exact .nothing (Or.inl rfl)
  | false =>
    cases himport : r.isImport with
    | false =>
      rw [step_of_attachment hpath himport, visitAttachment_eq] at h
      cases h
      exact .nothing (Or.inl rfl)
    | true =>
      rw [step_of_import hpath himport, visitImport] at h
      cases hread : b.obtainSource r (t.visit r.path) with
      | mk reading v =>
        have heffect : Effect b r t.footprint reading.error? v.footprint :=
          (obtained_of_obtainSource himport hread).effect
        rw [hread] at h
        cases reading with
        | failed e =>
          cases h
          exact heffect
        | missing reason =>
          cases h
          exact heffect
        | source text siblings =>
          cases hdialect : b.config.dialect? r.path with
          | none =>
            simp only [hdialect, Prod.mk.injEq] at h
            obtain ⟨rfl, rfl⟩ := h
            exact heffect.unknownDialect
          | some dialect =>
            simp only [hdialect, Prod.mk.injEq] at h
            obtain ⟨rfl, rfl⟩ := h
            rw [b.expand_eq hdialect, Traversal.foldl_adopt]
            exact heffect

/-- A visit that reads a module leaves behind what reading it does. -/
theorem footprint_of_step (hpath : r.path.isAmong t.visited = false) (himport : r.isImport = true) {text : String}
    {siblings : List Resource} {v : Traversal σ}
    (hread : b.obtainSource r (t.visit r.path) = (.source text siblings, v))
    (h : b.step r t = (none, u)) : u.footprint = v.footprint := by
  rw [step_of_import hpath himport, visitImport, hread] at h
  cases hdialect : b.config.dialect? r.path with
  | none => simp [hdialect] at h
  | some dialect =>
    simp only [hdialect, b.expand_eq hdialect, Traversal.foldl_adopt, Prod.mk.injEq, true_and] at h
    rw [← h]
    rfl

/-! ## Trails -/

/-- What the effects of all visits that do not fail the build keep holds behind a trail. -/
theorem Trail.footprint_induction {P : Footprint σ → Prop}
    (heffect : ∀ {r : Resource} {f f' : Footprint σ}, P f → b.Effect r f none f' → P f') {rs : List Resource}
    (h : b.Trail t rs u) (ht : P t.footprint) : P u.footprint := by
  induction h with
  | start => exact ht
  | @visit rs r u v _ hvisit ih =>
    obtain ⟨pending, -, hstep⟩ := hvisit
    have hvisited : Effect b r u.footprint none v.footprint := effect_of_step (t := { u with pending }) hstep
    exact heffect ih hvisited

/-- A run that ends leaves what a trail leaves behind, or what one more visit does that fails the build. -/
theorem exists_footprint_of_run {P : Footprint σ → Prop}
    (heffect : ∀ {r : Resource} {f f' : Footprint σ}, P f → b.Effect r f none f' → P f') (ht : P t.footprint)
    {fuel : Nat} {error : Option BuildError} (h : b.run fuel t = some (error, u)) :
    ∃ f, P f ∧ (error = none ∧ u.footprint = f ∨ ∃ e r, error = some e ∧ b.Effect r f (some e) u.footprint) := by
  obtain ⟨rs, v, htrail, hends⟩ := exists_trail_of_run h
  refine ⟨v.footprint, htrail.footprint_induction heffect ht, ?_⟩
  cases error with
  | none => exact Or.inl ⟨rfl, by rw [hends.1]⟩
  | some e =>
    obtain ⟨r, pending, -, hstep⟩ := hends
    have hfailed : Effect b r v.footprint (some e) u.footprint := effect_of_step (t := { v with pending }) hstep
    exact Or.inr ⟨e, r, rfl, hfailed⟩

theorem footprint_seed (b : Build σ) (root : Root) (disk : σ) (registry : Registry) :
    (b.seed root disk registry).footprint = ⟨disk, registry, []⟩ := by
  rw [seed_eq]
  rfl

theorem footprint_settleAttachments (b : Build σ) (t : Traversal σ) :
    (b.settleAttachments t).footprint = t.footprint := by
  obtain ⟨rs, -, hsettle⟩ := b.exists_settleAttachments t
  rw [hsettle]
  rfl

end Build

namespace Builder

variable {b : Builder σ} {root : Root} {s s' : BuildState σ} {fuel : Nat} {result : Except BuildError Graph}

/-- How a build ends with a footprint: with a graph that lists its compiled files, or with an effect that fails it. -/
def EndsWith (b : Builder σ) (root : Root) (s : BuildState σ) (f : Footprint σ) :
    Except BuildError Graph → BuildState σ → Prop
  | .ok g, s' => g.buildId = root.buildId s.builds ∧ g.compiledFiles = f.compiledFiles ∧
      s' = ⟨f.disk, f.registry, s.builds + 1⟩
  | .error e, s' => ∃ r f', (b.buildOf root s.builds).Effect r f (some e) f' ∧
      s' = ⟨f'.disk, f'.registry, s.builds + 1⟩

/-- A build leaves what all effects of visits keep, and if it fails, what one more visit leaves. -/
theorem exists_footprint {P : Footprint σ → Prop} (heffect : ∀ {r : Resource} {f f' : Footprint σ}, P f →
    (b.buildOf root s.builds).Effect r f none f' → P f') (hstart : P ⟨s.disk, s.registry, []⟩)
    (h : b.build fuel root s = some (result, s')) : ∃ f, P f ∧ b.EndsWith root s f result s' := by
  unfold build at h
  simp only at h
  rw [← (b.buildOf root s.builds).footprint_seed root s.disk s.registry] at hstart
  split at h
  · cases h
  · rename_i e u hrun
    cases h
    obtain ⟨f, hf, hends | ⟨e', r, he, hfailed⟩⟩ := Build.exists_footprint_of_run heffect hstart hrun
    · cases hends.1
    · cases he
      exact ⟨f, hf, r, _, hfailed, rfl⟩
  · rename_i u hrun
    cases h
    obtain ⟨f, hf, hends | ⟨e', r, he, -⟩⟩ := Build.exists_footprint_of_run heffect hstart hrun
    · refine ⟨f, hf, rfl, ?_, ?_⟩
      · rw [← hends.2, ← (b.buildOf root s.builds).footprint_settleAttachments u]
        rfl
      · rw [← hends.2]
        rfl
    · cases he

end Builder

end CellGraph
