import CellGraph.Disk.Update
import CellGraph.Proofs.Footprint
import CellGraph.Proofs.Reading
import CellGraph.Proofs.Recording

/-!
# What is registered for a build

A build registers the files that were compiled for it, under its own name and no other (`Registered`). It does so when a
module has been recovered, so a recovery that fails leaves the files that the compiler wrote for it out. They are the
last ones that a build has written, and that is all that can be missing (`Builder.allRegistered_iff_of_build`): it
happens when a compiler has written some files with success, but the missing module is not among them
(`WrittenElsewhere.not_allRegistered`).
-/

namespace CellGraph

variable {σ : Type}

namespace Build

variable {b : Build σ} {r : Resource} {before : Registry} {f f' : Footprint σ} {error : Option BuildError}

/-- A registry holds for a build what it held before and the files that were compiled for it since; nothing has changed
for other builds. -/
structure Registered (b : Build σ) (before : Registry) (f : Footprint σ) : Prop where
  own : b.registers = true → f.registry.registered b.id = before.registered b.id ++ f.compiledFiles
  others : ∀ id, id ≠ b.id → f.registry.registered id = before.registered id

theorem Registered.start (b : Build σ) (disk : σ) (before : Registry) : b.Registered before ⟨disk, before, []⟩ :=
  ⟨fun _ => (List.append_nil _).symm, fun _ _ => rfl⟩

/-- A visit registers what was compiled for it. -/
theorem Registered.effect (h : b.Registered before f) (heffect : b.Effect r f error f') : b.Registered before f' := by
  cases heffect with
  | nothing => exact h
  | failed => exact ⟨h.own, h.others⟩
  | @recovered compile m disk =>
    refine ⟨fun hregisters => ?_, fun id hid => ?_⟩
    · simp only [leaveEmitted, hregisters, if_true]
      rw [Registry.registered_register, h.own hregisters, List.append_assoc]
    · rw [← h.others id hid]
      unfold leaveEmitted
      dsimp only
      split
      · exact Registry.registered_register_of_ne _ _ hid
      · rfl

end Build

/-! ## What a compiler wrote -/

section Record

variable {compile : Compiler σ} {fs : FileSystem (Recorded σ)} {roots : Roots} {missing : Resource} {typed : Path}
  {s s' : Recorded σ}

/-- What the record of a recovery adds that comes about: what was written is among the compiled files. -/
theorem Compilation.record_of_ok {m : CompiledModule}
    (h : Compilation fs roots compile.recording missing typed s (.ok m) s') :
    ∃ new, s'.2 = s.2 ++ new ∧ ∀ x ∈ new, x.wrote = true → x.answer.files ⊆ m.emitted := by
  cases h with
  | @compiled listed emitted s₁ _ hlist _ hemit _ _ hcollect =>
    unfold Compiler.recording at hlist hemit
    cases hlist
    cases hemit
    refine ⟨_, List.append_assoc .., fun x hx hwrote => ?_⟩
    rcases List.mem_append.mp hx with hx | hx
    · rw [List.mem_singleton.mp hx] at hwrote
      cases hwrote
    · rw [List.mem_singleton.mp hx]
      exact (of_collectEmitted_ok hcollect).2.1

/-- What the record of a recovery adds that fails: only what comes last can have been written. -/
theorem Compilation.record_of_error {output : String}
    (h : Compilation fs roots compile.recording missing typed s (.error output) s') :
    ∃ new, s'.2 = s.2 ++ new ∧ ∀ x ∈ new, x.wrote = true → s'.2.getLast? = some x := by
  have hlast : ∀ {request : CompilerRequest} {listed emitted : CompilerAnswer},
      ∀ x ∈ [Exchange.mk (.list typed) listed] ++ [Exchange.mk request emitted], x.wrote = true →
        (s.2 ++ ([Exchange.mk (.list typed) listed] ++ [Exchange.mk request emitted])).getLast? = some x := by
    intro request listed emitted x hx hwrote
    rcases List.mem_append.mp hx with hx | hx
    · rw [List.mem_singleton.mp hx] at hwrote
      cases hwrote
    · rw [List.mem_singleton.mp hx, ← List.append_assoc, List.getLast?_append]
      rfl
  cases h with
  | unlisted hlist =>
    unfold Compiler.recording at hlist
    cases hlist
    refine ⟨_, rfl, fun x hx hwrote => ?_⟩
    rw [List.mem_singleton.mp hx] at hwrote
    cases hwrote
  | unwritten hlist _ hemit =>
    unfold Compiler.recording at hlist hemit
    cases hlist
    cases hemit
    rw [List.append_assoc]
    exact ⟨_, rfl, hlast⟩
  | unreadable hlist _ hemit =>
    unfold Compiler.recording at hlist hemit
    cases hlist
    cases hemit
    rw [List.append_assoc]
    exact ⟨_, rfl, hlast⟩

end Record

/-- Whether all files that a compiler reported to have written are registered for a build. -/
def AllRegistered (record : List Exchange) (registry : Registry) (id : String) : Prop :=
  ∀ x ∈ record, x.wrote = true → x.answer.files ⊆ registry.registered id

namespace Build

variable {b : Build (Recorded σ)} {r : Resource} {before : Registry} {f f' : Footprint (Recorded σ)}

/-- Whether the compiler of a build keeps a record. -/
def Records (b : Build (Recorded σ)) : Prop :=
  ∀ compile, b.compiler = some compile → ∃ plain : Compiler σ, compile = plain.recording

theorem records_recording (b : Builder σ) (root : Root) (builds : Nat) : (b.recording.buildOf root builds).Records := by
  intro compile hcompile
  obtain ⟨plain, -, hplain⟩ := Option.map_eq_some_iff.mp hcompile
  exact ⟨plain, hplain.symm⟩

/-- What has been written has been compiled for the build. -/
def WrittenIsCompiled (f : Footprint (Recorded σ)) : Prop :=
  ∀ x ∈ f.disk.2, x.wrote = true → x.answer.files ⊆ f.compiledFiles

/-- A visit that does not fail at a recovery has been compiled all that it wrote. -/
theorem WrittenIsCompiled.effect (h : WrittenIsCompiled f) (hb : b.Records) {error : Option BuildError}
    (heffect : b.Effect r f error f') (herror : GoesOn r error) : WrittenIsCompiled f' := by
  cases heffect with
  | nothing => exact h
  | failed =>
    rcases herror with herror | herror <;> cases herror
  | recovered hrecover hcompile =>
    obtain ⟨plain, rfl⟩ := hb _ hrecover.compiler
    obtain ⟨new, hrecord, hnew⟩ := hcompile.record_of_ok
    intro x hx hwrote
    dsimp only [leaveEmitted] at hx ⊢
    rw [hrecord] at hx
    rcases List.mem_append.mp hx with hx | hx
    · exact List.subset_append_of_subset_left _ (h x hx hwrote)
    · exact List.subset_append_of_subset_right _ (hnew x hx hwrote)

/-- A visit that fails has been compiled all that was written, but if it fails at a recovery, for what came last. -/
theorem WrittenIsCompiled.effect_failed (h : WrittenIsCompiled f) (hb : b.Records) {e : BuildError}
    (heffect : b.Effect r f (some e) f') : ∀ x ∈ f'.disk.2, x.wrote = true → x.answer.files ⊆ f'.compiledFiles ∨
      f'.disk.2.getLast? = some x ∧ ∃ typed reference referent output,
        e = .compileFailure typed reference referent output := by
  intro x hx hwrote
  by_cases herror : GoesOn r (some e)
  · exact Or.inl (h.effect hb heffect herror x hx hwrote)
  · cases heffect with
    | nothing hgoes => exact absurd hgoes herror
    | recovered _ _ hgoes => exact absurd hgoes herror
    | failed hrecover hcompile =>
      obtain ⟨plain, rfl⟩ := hb _ hrecover.compiler
      obtain ⟨new, hrecord, hnew⟩ := hcompile.record_of_error
      dsimp only at hx
      rw [hrecord] at hx
      rcases List.mem_append.mp hx with hx | hx
      · exact Or.inl (h x hx hwrote)
      · exact Or.inr ⟨hnew x hx hwrote, _, _, _, _, rfl⟩

end Build

/-- The files that were compiled for a build are registered for it. -/
theorem Build.Registered.compiledFiles_subset {b : Build σ} {before : Registry} {f : Footprint σ}
    (h : b.Registered before f) (hb : b.registers = true) : f.compiledFiles ⊆ f.registry.registered b.id := by
  rw [h.own hb]
  exact List.subset_append_right _ _

namespace Builder

variable {b : Builder σ} {root : Root} {fuel : Nat}

/-- Nothing changes for other builds, and the next build has another number. -/
theorem others_of_build {s s' : BuildState σ} {result : Except BuildError Graph}
    (h : b.build fuel root s = some (result, s')) : s'.builds = s.builds + 1 ∧
      ∀ id, id ≠ root.buildId s.builds → s'.registry.registered id = s.registry.registered id := by
  obtain ⟨f, hregistered, hends⟩ := exists_footprint (b := b) (s := s)
    (P := fun f => (b.buildOf root s.builds).Registered s.registry f) (fun hf heffect => hf.effect heffect)
    (.start ..) h
  cases result with
  | ok g =>
    obtain ⟨-, -, rfl⟩ := hends
    exact ⟨rfl, hregistered.others⟩
  | error e =>
    obtain ⟨r, f', heffect, rfl⟩ := hends
    exact ⟨rfl, (hregistered.effect heffect).others⟩

/-- What is registered under the name of a build that comes to a graph is what was compiled for it. -/
theorem registered_of_build {s s' : BuildState σ} {g : Graph} (hb : b.registers = true)
    (hfresh : s.registry.registered (root.buildId s.builds) = []) (h : b.build fuel root s = some (.ok g, s')) :
    g.buildId = root.buildId s.builds ∧ s'.registry.registered g.buildId = g.compiledFiles := by
  obtain ⟨f, hregistered, hid, hcompiled, rfl⟩ := exists_footprint (b := b) (s := s)
    (P := fun f => (b.buildOf root s.builds).Registered s.registry f) (fun hf heffect => hf.effect heffect)
    (.start ..) h
  have hown : f.registry.registered (root.buildId s.builds) =
      s.registry.registered (root.buildId s.builds) ++ f.compiledFiles := hregistered.own hb
  rw [hfresh, List.nil_append] at hown
  exact ⟨hid, by rw [hid, hcompiled]; exact hown⟩

/-- In a build that records, all that its compiler wrote is registered, but for what it wrote last if the build fails at
a recovery: then only the files that had been registered before are. -/
theorem allRegistered_iff_of_build (hb : b.registers = true) {disk : σ} {registry : Registry} {builds : Nat}
    {result : Except BuildError Graph} {s' : BuildState (Recorded σ)}
    (h : b.recording.build fuel root ⟨(disk, []), registry, builds⟩ = some (result, s')) :
    b.build fuel root ⟨disk, registry, builds⟩ = some (result, s'.unrecorded) ∧
    (AllRegistered s'.disk.2 s'.registry (root.buildId builds) ↔
      ∀ typed reference referent output x, result = .error (.compileFailure typed reference referent output) →
        s'.disk.2.getLast? = some x → x.wrote = true →
        x.answer.files ⊆ s'.registry.registered (root.buildId builds)) := by
  have hplain := b.build_recording fuel root ⟨(disk, []), registry, builds⟩
  rw [h] at hplain
  refine ⟨hplain.symm, fun hall typed reference referent output x _ hlast => hall x (List.mem_of_getLast? hlast), ?_⟩
  intro hlast x hx hwrote
  have hrecords := Build.records_recording b root builds
  have hstart : (b.recording.buildOf root builds).Registered registry ⟨(disk, []), registry, []⟩ := .start ..
  have hempty : Build.WrittenIsCompiled ⟨((disk, []) : Recorded σ), registry, []⟩ := fun x hx => by cases hx
  obtain ⟨f, ⟨hregistered, hwritten⟩, hends⟩ := exists_footprint (b := b.recording)
    (s := ⟨(disk, []), registry, builds⟩)
    (P := fun f => (b.recording.buildOf root builds).Registered registry f ∧ Build.WrittenIsCompiled f)
    (fun hf heffect => ⟨hf.1.effect heffect, hf.2.effect hrecords heffect (Or.inl rfl)⟩) ⟨hstart, hempty⟩ h
  cases result with
  | ok g =>
    obtain ⟨-, -, rfl⟩ := hends
    exact List.Subset.trans (hwritten x hx hwrote) (hregistered.compiledFiles_subset hb)
  | error e =>
    obtain ⟨r, f', heffect, rfl⟩ := hends
    rcases hwritten.effect_failed hrecords heffect x hx hwrote with hcompiled | ⟨hx, _, _, _, _, rfl⟩
    · exact List.Subset.trans hcompiled ((hregistered.effect heffect).compiledFiles_subset hb)
    · exact hlast _ _ _ _ x rfl hx hwrote

end Builder

/-! ## Files that are written elsewhere -/

namespace WrittenElsewhere

/-- A module that can be compiled. -/
def disk : Disk := .ofTexts [(["a.ts"], "")]

/-- A compiler that writes a module, but not the one that is asked for. -/
def compiler : Compiler Disk
  | .list typed, d => (⟨true, "", [typed]⟩, d)
  | .emit _, d => (⟨true, "", [⟨"/b.js"⟩]⟩, d.put ["b.js"] (.file [] false))

def builder : Builder Disk := { Builder.onDisk with compiler := some compiler, registers := true }

def root : Root := .script "import './a.js'" ⟨"/"⟩

/-- How the build of the root fails. -/
def failure : BuildError := .compileFailure ⟨"/a.ts"⟩ "./a.js" none
  "compilation succeeded but /a.js could not be read: No such file or directory (os error 2)"

/-- What the build fails with, what its compiler said last, and what is registered in the end. -/
def end? (o : Outcome (Recorded Disk) Graph) : Option (BuildError × Option Exchange × List Path) :=
  o.bind fun x =>
    match x.1 with
    | .ok _ => none
    | .error e => some (e, x.2.disk.2.getLast?, x.2.registry.registered (root.buildId 0))

/-- The file has been written and is not registered. -/
theorem not_allRegistered : ∃ s' : BuildState (Recorded Disk),
    builder.recording.build 2 root ⟨(disk, []), .empty, 0⟩ = some (.error failure, s') ∧
    builder.build 2 root ⟨disk, .empty, 0⟩ = some (.error failure, s'.unrecorded) ∧
    ¬ AllRegistered s'.disk.2 s'.registry (root.buildId 0) := by
  have hend : end? (builder.recording.build 2 root ⟨(disk, []), .empty, 0⟩) =
      some (failure, some ⟨.emit [⟨"/a.ts"⟩], ⟨true, "", [⟨"/b.js"⟩]⟩⟩, []) := by decide +kernel
  obtain ⟨⟨result, s'⟩, hbuild, hend⟩ := Option.bind_eq_some_iff.mp hend
  cases result with
  | ok g => cases hend
  | error e =>
    simp only [Option.some.injEq, Prod.mk.injEq] at hend
    obtain ⟨rfl, hlast, hregistered⟩ := hend
    obtain ⟨hplain, hiff⟩ := Builder.allRegistered_iff_of_build rfl hbuild
    refine ⟨s', hbuild, hplain, fun hall => ?_⟩
    have hfile : (⟨"/b.js"⟩ : Path) ∈ s'.registry.registered (root.buildId 0) :=
      hiff.mp hall _ _ _ _ _ rfl hlast rfl List.mem_cons_self
    rw [hregistered] at hfile
    cases hfile

end WrittenElsewhere

end CellGraph
