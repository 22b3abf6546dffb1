import CellGraph.Proofs.Partition
import CellGraph.Proofs.Registration

/-!
# What a compiler is asked

A build asks its compiler for nothing but missing modules, and for each of them in one block of requests: what its typed
source needs and, if the compiler can tell, to write that (`Asked`). A block that fails, because a request does or
because the module still cannot be read, fails the build, which then asks for nothing more. So the record of a build
consists of the blocks of missing modules in the order of their turns (`Build.Blocks`), and what fails a build at a
recovery is its last block (`Builder.requests_of_build`).
-/

namespace CellGraph

variable {σ : Type}

/-! ## Blocks -/

/-- What a compiler is asked for one missing module, with the files before and after it. -/
structure Block (σ : Type) where
  missing : Resource
  before : σ
  exchanges : List Exchange
  after : σ

/-- How a compiler is asked: to list what a typed source needs and then, only if it can, to write the modules of what it
listed. -/
inductive Asked (compile : Compiler σ) (typed : Path) (s : σ) : List Exchange → σ → Prop
  | unlisted {listed : CompilerAnswer} {s₁ : σ} (hlist : compile (.list typed) s = (listed, s₁))
      (hlisted : listed.success = false) : Asked compile typed s [⟨.list typed, listed⟩] s₁
  | listed {listed emitted : CompilerAnswer} {s₁ s₂ : σ} (hlist : compile (.list typed) s = (listed, s₁))
      (hlisted : listed.success = true) (hemit : compile (.emit (sourcesToEmit typed listed)) s₁ = (emitted, s₂)) :
      Asked compile typed s [⟨.list typed, listed⟩, ⟨.emit (sourcesToEmit typed listed), emitted⟩] s₂

/-- What is said of a block that fails: what the compiler said when a request failed or, if none did, that the module
cannot be read after all. -/
def Block.failure? (fs : FileSystem σ) (x : Block σ) : Option String :=
  match x.exchanges.find? fun exchange => !exchange.answer.success with
  | some exchange => some exchange.answer.output
  | none =>
    match fs.readText x.missing.path x.after with
    | .ok _ => none
    | .error reason =>
      some ("compilation succeeded but " ++ x.missing.path.text ++ " could not be read: " ++ reason.message)

/-- A compiler is asked in one way. -/
theorem Asked.unique {compile : Compiler σ} {typed : Path} {s s₁ s₂ : σ} {xs ys : List Exchange}
    (hx : Asked compile typed s xs s₁) (hy : Asked compile typed s ys s₂) : xs = ys ∧ s₁ = s₂ := by
  cases hx with
  | unlisted hlist hlisted =>
    cases hy with
    | unlisted hlist' =>
      cases hlist.symm.trans hlist'
      exact ⟨rfl, rfl⟩
    | listed hlist' hlisted' =>
      cases hlist.symm.trans hlist'
      rw [hlisted] at hlisted'
      cases hlisted'
  | listed hlist hlisted hemit =>
    cases hy with
    | unlisted hlist' hlisted' =>
      cases hlist.symm.trans hlist'
      rw [hlisted] at hlisted'
      cases hlisted'
    | listed hlist' _ hemit' =>
      cases hlist.symm.trans hlist'
      cases hemit.symm.trans hemit'
      exact ⟨rfl, rfl⟩

/-- What a compilation that fails says. -/
def compilationFailure? : Except String CompiledModule → Option String
  | .ok _ => none
  | .error output => some output

section Recording

variable {b : Build σ} {r : Resource} {typed : Path} {s s' : Recorded σ}

/-- A compilation that keeps a record adds a block to it, which fails if the compilation does. -/
theorem Compilation.exists_asked {compile : Compiler σ} {result : Except String CompiledModule}
    (h : Compilation b.recording.files b.recording.roots compile.recording r typed s result s') :
    ∃ exchanges, Asked compile typed s.1 exchanges s'.1 ∧ s'.2 = s.2 ++ exchanges ∧
      Block.failure? b.files ⟨r, s.1, exchanges, s'.1⟩ = compilationFailure? result := by
  cases h with
  | unlisted hlist hlisted =>
    unfold Compiler.recording at hlist
    cases hlist
    refine ⟨_, .unlisted rfl hlisted, rfl, ?_⟩
    simp [Block.failure?, compilationFailure?, hlisted]
  | unwritten hlist hlisted hemit hemitted =>
    unfold Compiler.recording at hlist hemit
    cases hlist
    cases hemit
    refine ⟨_, .listed rfl hlisted rfl, List.append_assoc .., ?_⟩
    simp [Block.failure?, compilationFailure?, hlisted, hemitted]
  | unreadable hlist hlisted hemit hemitted hcollect =>
    unfold Compiler.recording at hlist hemit
    cases hlist
    cases hemit
    refine ⟨_, .listed rfl hlisted rfl, List.append_assoc .., ?_⟩
    obtain ⟨reason, hread, rfl⟩ := eq_of_collectEmitted_error hcollect
    change b.files.readText r.path _ = .error reason at hread
    simp [Block.failure?, compilationFailure?, hlisted, hemitted, hread]
  | compiled hlist hlisted hemit hemitted hcollect =>
    unfold Compiler.recording at hlist hemit
    cases hlist
    cases hemit
    refine ⟨_, .listed rfl hlisted rfl, List.append_assoc .., ?_⟩
    have hread := (of_collectEmitted_ok hcollect).1
    change b.files.readText r.path _ = .ok _ at hread
    simp [Block.failure?, compilationFailure?, hlisted, hemitted, hread]

end Recording

namespace Build

variable {b : Build σ} {r : Resource} {t u : Traversal (Recorded σ)} {x : Block σ}

/-- Whether a block is what a compiler is asked for a module that is to be recovered. -/
def Requested (b : Build σ) (x : Block σ) : Prop :=
  ∃ compile, b.ToRecover x.missing compile x.before ∧
    Asked compile (b.typedPath x.missing) x.before x.exchanges x.after

/-- A build that keeps a record recovers the same modules. -/
theorem toRecover_recording {compile : Compiler (Recorded σ)} {s : Recorded σ} :
    b.recording.ToRecover r compile s ↔ ∃ plain : Compiler σ, compile = plain.recording ∧ b.ToRecover r plain s.1 := by
  constructor
  · intro h
    obtain ⟨plain, hplain, hcompile⟩ := Option.map_eq_some_iff.mp h.compiler
    exact ⟨plain, hcompile.symm, h.isImport, h.unreadable, h.recoverable, hplain, h.typed⟩
  · rintro ⟨plain, rfl, h⟩
    exact ⟨h.isImport, h.unreadable, h.recoverable, congrArg (Option.map Compiler.recording) h.compiler, h.typed⟩

/-! ## Visits -/

/-- How a visit ends that has asked a compiler: it goes on, or it fails with what is said of the block. -/
def EndsBlock (b : Build σ) (x : Block σ) (error : Option BuildError) : Prop :=
  match x.failure? b.files with
  | none => GoesOn x.missing error
  | some output =>
    error = some (.compileFailure (b.typedPath x.missing) x.missing.reference x.missing.referent output)

/-- What a visit adds to a record: nothing, or the block of its resource. -/
inductive Adds (b : Build σ) (r : Resource) (s : Recorded σ) : Option BuildError → List (Block σ) → Recorded σ → Prop
  | nothing {error : Option BuildError} (herror : GoesOn r error) : Adds b r s error [] s
  | block {error : Option BuildError} {exchanges : List Exchange} {after : σ}
      (hrequested : b.Requested ⟨r, s.1, exchanges, after⟩) (hends : b.EndsBlock ⟨r, s.1, exchanges, after⟩ error) :
      Adds b r s error [⟨r, s.1, exchanges, after⟩] (after, s.2 ++ exchanges)

/-- A visit that does not fail the build adds no block that fails. -/
theorem Adds.failure?_eq_none {s s' : Recorded σ} {blocks : List (Block σ)} (h : b.Adds r s none blocks s')
    (hx : x ∈ blocks) : x.failure? b.files = none := by
  cases h with
  | nothing => cases hx
  | block _ hends =>
    rw [List.mem_singleton.mp hx]
    unfold EndsBlock at hends
    split at hends
    · assumption
    · cases hends

/-- A visit adds at most one block to a record. -/
theorem adds_of_step {error : Option BuildError} (h : b.recording.step r t = (error, u)) :
    ∃ blocks, b.Adds r t.disk error blocks u.disk := by
  have heffect : b.recording.Effect r t.footprint error u.footprint := effect_of_step h
  change ∃ blocks, b.Adds r t.footprint.disk error blocks u.footprint.disk
  generalize t.footprint = f at heffect ⊢
  generalize u.footprint = f' at heffect ⊢
  cases heffect with
  | nothing herror => exact ⟨_, .nothing herror⟩
  | @failed _ output disk hrecover hcompile =>
    obtain ⟨plain, rfl, hplain⟩ := toRecover_recording.mp hrecover
    obtain ⟨exchanges, hasked, hrecord, hfailure⟩ := hcompile.exists_asked
    have hends : b.EndsBlock ⟨r, f.disk.1, exchanges, disk.1⟩
        (some (.compileFailure (b.typedPath r) r.reference r.referent output)) := by
      unfold EndsBlock
      rw [hfailure]
      rfl
    have hadds := Adds.block ⟨plain, hplain, hasked⟩ hends
    rw [← hrecord] at hadds
    exact ⟨_, hadds⟩
  | @recovered _ m disk _ hrecover hcompile herror =>
    obtain ⟨plain, rfl, hplain⟩ := toRecover_recording.mp hrecover
    obtain ⟨exchanges, hasked, hrecord, hfailure⟩ := hcompile.exists_asked
    have hends : b.EndsBlock ⟨r, f.disk.1, exchanges, disk.1⟩ error := by
      unfold EndsBlock
      rw [hfailure]
      exact herror
    have hadds := Adds.block ⟨plain, hplain, hasked⟩ hends
    rw [← hrecord] at hadds
    exact ⟨_, hadds⟩

/-- A visit whose module cannot be compiled fails the build. -/
theorem step_of_failed {b : Build σ} {t : Traversal σ} {compile : Compiler σ} {output : String} {disk : σ}
    (hrecover : b.ToRecover r compile t.disk) (hpath : r.path.isAmong t.visited = false)
    (hcompile : compileModule b.files b.roots compile r (b.typedPath r) t.disk = (.error output, disk)) :
    b.step r t =
      (some (.compileFailure (b.typedPath r) r.reference r.referent output), { t.visit r.path with disk }) := by
  obtain ⟨reason, hread⟩ := hrecover.unreadable
  have hrecovery : recover b.files b.config b.roots b.compiler r t.disk =
      (.error (.compileFailure (b.typedPath r) r.reference r.referent output), disk) := by
    have htyped := hrecover.typed
    unfold typedPath at htyped hcompile ⊢
    simp only [recover, hrecover.compiler, htyped, hcompile, if_true]
  have hdisk : (t.visit r.path).disk = t.disk := rfl
  rw [step_of_import hpath hrecover.isImport, visitImport, obtainSource, hdisk, hread]
  simp only [hrecover.recoverable, hrecovery, if_true]

/-- A block that fails when its module has its turn fails the build. -/
theorem step_of_requested (hrequested : b.Requested x) (hbefore : t.disk.1 = x.before)
    (hpath : x.missing.path.isAmong t.visited = false) {output : String} (hfailure : x.failure? b.files = some output) :
    ∃ u, b.recording.step x.missing t =
        (some (.compileFailure (b.typedPath x.missing) x.missing.reference x.missing.referent output), u) ∧
      u.disk = (x.after, t.disk.2 ++ x.exchanges) := by
  obtain ⟨missing, before, xs, after⟩ := x
  dsimp only at hbefore
  subst hbefore
  obtain ⟨plain, hrecover, hasked⟩ := hrequested
  have hrecover' : b.recording.ToRecover missing plain.recording t.disk :=
    toRecover_recording.mpr ⟨plain, rfl, hrecover⟩
  cases hcompile : compileModule b.recording.files b.recording.roots plain.recording missing
      (b.recording.typedPath missing) t.disk with
  | mk result disk =>
    obtain ⟨ys, hasked', hrecord, hresult⟩ := (compilation_of_compileModule hcompile).exists_asked
    obtain ⟨rfl, hafter⟩ := hasked.unique hasked'
    dsimp only at hafter
    subst hafter
    rw [hfailure] at hresult
    cases result with
    | ok m => cases hresult
    | error output' =>
      cases hresult
      exact ⟨_, step_of_failed hrecover' hpath hcompile, by rw [← hrecord]⟩

/-! ## Trails -/

/-- Whether a missing module has its turn in a run when the files are as they are before its block. -/
def InTurn (b : Build σ) (start : Traversal (Recorded σ)) (x : Block σ) : Prop :=
  ∃ rs t, b.recording.Trail start rs t ∧ t.pending.head? = some x.missing ∧ t.disk.1 = x.before

/-- Whether a record consists of some blocks, for modules that have had their turns in a run: each was requested in its
turn, and there is at most one for a path. -/
structure Blocks (b : Build σ) (start : Traversal (Recorded σ)) (turns : List Resource) (record : List Exchange)
    (blocks : List (Block σ)) : Prop where
  record : record = blocks.flatMap Block.exchanges
  ordered : (blocks.map Block.missing).Sublist turns
  distinct : Distinct (blocks.map fun x => x.missing.path)
  inTurn : ∀ x ∈ blocks, b.InTurn start x
  requested : ∀ x ∈ blocks, b.Requested x

section Trails

variable {root : Root} {start : Traversal (Recorded σ)} {rs : List Resource} {blocks new : List (Block σ)}

theorem Blocks.nil : b.Blocks start [] [] [] :=
  ⟨rfl, List.Sublist.slnil, List.Pairwise.nil, by simp, by simp⟩

/-- The next visit adds its block, if any. -/
theorem Blocks.extend (h : b.Blocks start rs t.disk.2 blocks) (htrail : b.recording.Trail start rs t)
    (hturn : t.pending.head? = some r) (hdistinct : Distinct ((rs ++ [r]).map Resource.path))
    {error : Option BuildError} {s : Recorded σ} (hadds : b.Adds r t.disk error new s) :
    b.Blocks start (rs ++ [r]) s.2 (blocks ++ new) := by
  cases hadds with
  | nothing =>
    rw [List.append_nil]
    exact { h with ordered := h.ordered.trans (List.sublist_append_left _ _) }
  | @block exchanges after hrequested _ =>
    have hordered : ((blocks ++ [Block.mk r t.disk.1 exchanges after]).map Block.missing).Sublist (rs ++ [r]) := by
      rw [List.map_append]
      exact h.ordered.append (List.Sublist.refl _)
    have hpaths := hordered.map Resource.path
    rw [List.map_map] at hpaths
    exact {
      record := by
        dsimp only
        rw [h.record, List.flatMap_append, List.flatMap_singleton]
      ordered := hordered
      distinct := hdistinct.sublist hpaths
      inTurn := by
        intro x hx
        rcases List.mem_append.mp hx with hx | hx
        · exact h.inTurn x hx
        · rw [List.mem_singleton.mp hx]
          exact ⟨rs, t, htrail, hturn, rfl⟩
      requested := by
        intro x hx
        rcases List.mem_append.mp hx with hx | hx
        · exact h.requested x hx
        · rw [List.mem_singleton.mp hx]
          exact hrequested }

/-- What was asked in the visits of a trail are blocks that did not fail. -/
theorem Trail.exists_blocks {disk : σ} {registry : Registry}
    (h : b.recording.Trail (b.recording.seed root (disk, []) registry) rs t) :
    ∃ blocks, b.Blocks (b.recording.seed root (disk, []) registry) rs t.disk.2 blocks ∧
      ∀ x ∈ blocks, x.failure? b.files = none := by
  induction h with
  | start =>
    refine ⟨[], ?_, by simp⟩
    rw [seed_eq]
    exact .nil
  | @visit rs r u v htrail hvisit ih =>
    obtain ⟨blocks, hblocks, hfailure⟩ := ih
    obtain ⟨pending, hpending, hstep⟩ := hvisit
    obtain ⟨new, hadds⟩ := adds_of_step hstep
    have hturn : u.pending.head? = some r := List.head?_eq_some_iff.mpr ⟨pending, hpending⟩
    have hdistinct := (htrail.toured.distinct_turn hpending).sublist (List.sublist_append_right _ _)
    refine ⟨blocks ++ new, hblocks.extend htrail hturn hdistinct hadds, ?_⟩
    intro x hx
    rcases List.mem_append.mp hx with hx | hx
    · exact hfailure x hx
    · exact hadds.failure?_eq_none hx

/-- How a run ends that asked for some blocks: all but the last did not fail, and it fails at a recovery with what is
said of the last one. -/
structure EndsBlocks (b : Build σ) (blocks : List (Block σ)) (error : Option BuildError) : Prop where
  succeeded : ∀ x ∈ blocks.dropLast, x.failure? b.files = none
  failed : ∀ typed reference referent output, error = some (.compileFailure typed reference referent output) ↔
    ∃ x, blocks.getLast? = some x ∧ x.failure? b.files = some output ∧ typed = b.typedPath x.missing ∧
      reference = x.missing.reference ∧ referent = x.missing.referent

/-- A run that does not fail at a recovery has asked for no block that fails. -/
theorem EndsBlocks.of_succeeded {error : Option BuildError} (h : ∀ x ∈ blocks, x.failure? b.files = none)
    (herror : error = none ∨ ∃ p, error = some (.unknownDialect p)) : b.EndsBlocks blocks error := by
  refine ⟨fun x hx => h x ((List.dropLast_sublist blocks).subset hx), fun typed reference referent output => ⟨?_, ?_⟩⟩
  · rintro rfl
    rcases herror with herror | ⟨p, herror⟩ <;> cases herror
  · rintro ⟨x, hx, hfailure, -⟩
    rw [h x (List.mem_of_getLast? hx)] at hfailure
    cases hfailure

/-- A run fails with what is said of the block that its last visit added. -/
theorem EndsBlocks.of_adds {s s' : Recorded σ} {e : BuildError} (h : ∀ x ∈ blocks, x.failure? b.files = none)
    (hadds : b.Adds r s (some e) new s') : b.EndsBlocks (blocks ++ new) (some e) := by
  have hgoes : ∀ {r : Resource}, GoesOn r (some e) → some e = none ∨ ∃ p, some e = some (.unknownDialect p) := by
    rintro r (herror | herror)
    · cases herror
    · exact Or.inr ⟨_, herror⟩
  cases hadds with
  | nothing herror =>
    rw [List.append_nil]
    exact .of_succeeded h (hgoes herror)
  | @block exchanges after _ hends =>
    cases hfailure : Block.failure? b.files ⟨r, s.1, exchanges, after⟩ with
    | none =>
      unfold EndsBlock at hends
      rw [hfailure] at hends
      refine .of_succeeded (fun x hx => ?_) (hgoes hends)
      rcases List.mem_append.mp hx with hx | hx
      · exact h x hx
      · rw [List.mem_singleton.mp hx, hfailure]
    | some output =>
      unfold EndsBlock at hends
      rw [hfailure] at hends
      cases hends
      refine ⟨fun x hx => h x (by rwa [List.dropLast_concat] at hx), fun typed reference referent said => ?_⟩
      rw [List.getLast?_concat]
      constructor
      · intro herror
        cases herror
        exact ⟨_, rfl, hfailure, rfl, rfl, rfl⟩
      · rintro ⟨x, hx, hsaid, rfl, rfl, rfl⟩
        cases hx
        rw [hfailure] at hsaid
        cases hsaid
        rfl

/-- What was asked in a run that ends are blocks, in the order of the turns that its modules had. -/
theorem exists_blocks_of_run {disk : σ} {registry : Registry} {fuel : Nat} {error : Option BuildError}
    (h : b.recording.run fuel (b.recording.seed root (disk, []) registry) = some (error, u)) :
    ∃ rs t blocks, b.recording.Trail (b.recording.seed root (disk, []) registry) rs t ∧
      b.Blocks (b.recording.seed root (disk, []) registry) (rs ++ t.pending.head?.toList) u.disk.2 blocks ∧
      b.EndsBlocks blocks error := by
  obtain ⟨rs, t, htrail, hends⟩ := exists_trail_of_run h
  obtain ⟨blocks, hblocks, hfailure⟩ := htrail.exists_blocks
  cases error with
  | none =>
    obtain ⟨rfl, hpending⟩ := hends
    refine ⟨rs, u, blocks, htrail, ?_, .of_succeeded hfailure (Or.inl rfl)⟩
    rw [hpending, List.head?_nil, Option.toList_none, List.append_nil]
    exact hblocks
  | some e =>
    obtain ⟨r, pending, hpending, hstep⟩ := hends
    obtain ⟨new, hadds⟩ := adds_of_step hstep
    have hturn : t.pending.head? = some r := List.head?_eq_some_iff.mpr ⟨pending, hpending⟩
    have hdistinct := (htrail.toured.distinct_turn hpending).sublist (List.sublist_append_right _ _)
    refine ⟨rs, t, blocks ++ new, htrail, ?_, .of_adds hfailure hadds⟩
    rw [hturn]
    exact hblocks.extend htrail hturn hdistinct hadds

end Trails

end Build

namespace Builder

section Runs

variable {b : Builder σ} {root : Root} {s s' : BuildState σ} {fuel : Nat}

/-- A run that fails is a build that fails. -/
theorem build_of_run_error {e : BuildError} {u : Traversal σ}
    (h : (b.buildOf root s.builds).run fuel ((b.buildOf root s.builds).seed root s.disk s.registry) =
      some (some e, u)) : b.build fuel root s = some (.error e, ⟨u.disk, u.registry, s.builds + 1⟩) := by
  unfold build
  simp only [h]

/-- A build that ends does so by a run, and fails as it does. -/
theorem exists_run_of_build {result : Except BuildError Graph} (h : b.build fuel root s = some (result, s')) :
    ∃ error u, (b.buildOf root s.builds).run fuel ((b.buildOf root s.builds).seed root s.disk s.registry) =
        some (error, u) ∧ s'.disk = u.disk ∧ ∀ e, result = .error e ↔ error = some e := by
  unfold build at h
  simp only at h
  split at h
  · cases h
  · rename_i e u hrun
    cases h
    exact ⟨_, u, hrun, rfl, fun e' => by rw [Except.error.injEq, Option.some.injEq]⟩
  · rename_i u hrun
    cases h
    refine ⟨_, u, hrun, rfl, fun e => ⟨fun herror => ?_, fun herror => ?_⟩⟩
    · cases herror
    · cases herror

/-- A block that fails in its turn ends the build. -/
theorem exists_build_of_requested {disk : σ} {registry : Registry} {builds : Nat} {rs : List Resource}
    {t : Traversal (Recorded σ)} {x : Block σ} {output : String}
    (htrail : (b.buildOf root builds).recording.Trail
      ((b.buildOf root builds).recording.seed root (disk, []) registry) rs t)
    (hturn : t.pending.head? = some x.missing) (hbefore : t.disk.1 = x.before)
    (hrequested : (b.buildOf root builds).Requested x) (hfailure : x.failure? b.files = some output) :
    ∃ fuel s', b.recording.build fuel root ⟨(disk, []), registry, builds⟩ = some (.error (.compileFailure
        ((b.buildOf root builds).typedPath x.missing) x.missing.reference x.missing.referent output), s') ∧
      s'.disk = (x.after, t.disk.2 ++ x.exchanges) := by
  obtain ⟨pending, hpending⟩ := List.head?_eq_some_iff.mp hturn
  have hpath := htrail.toured.not_visited hpending
  obtain ⟨u, hstep, hdisk⟩ := Build.step_of_requested (t := { t with pending }) hrequested hbefore hpath hfailure
  have hrun : (b.buildOf root builds).recording.run 1 t = some (some (.compileFailure
      ((b.buildOf root builds).typedPath x.missing) x.missing.reference x.missing.referent output), u) := by
    simp only [Build.run, hpending, hstep]
  rw [← htrail.run_eq] at hrun
  exact ⟨rs.length + 1, _, build_of_run_error hrun, hdisk⟩

end Runs

/-- What a build asks its compiler are blocks, each in the turn of a missing module that is to be recovered and at most
one for a path. Up to any visit none of them failed. A block that fails ends the build at once, with what is said of it,
and nothing else fails a build at a recovery. -/
theorem requests_of_build (b : Builder σ) (root : Root) (disk : σ) (registry : Registry) (builds : Nat) :
    let build := b.buildOf root builds
    let start := build.recording.seed root (disk, []) registry
    (∀ rs t, build.recording.Trail start rs t → ∃ blocks, build.Blocks start rs t.disk.2 blocks ∧
      ∀ x ∈ blocks, x.failure? b.files = none) ∧
    (∀ rs t x output, build.recording.Trail start rs t → t.pending.head? = some x.missing → t.disk.1 = x.before →
      build.Requested x → x.failure? b.files = some output →
      ∃ fuel s', b.recording.build fuel root ⟨(disk, []), registry, builds⟩ = some (.error (.compileFailure
          (build.typedPath x.missing) x.missing.reference x.missing.referent output), s') ∧
        s'.disk = (x.after, t.disk.2 ++ x.exchanges)) ∧
    (∀ fuel result s', b.recording.build fuel root ⟨(disk, []), registry, builds⟩ = some (result, s') →
      b.build fuel root ⟨disk, registry, builds⟩ = some (result, s'.unrecorded) ∧
      ∃ rs t blocks, build.recording.Trail start rs t ∧
        build.Blocks start (rs ++ t.pending.head?.toList) s'.disk.2 blocks ∧
        (∀ x ∈ blocks.dropLast, x.failure? b.files = none) ∧
        ∀ typed reference referent output, result = .error (.compileFailure typed reference referent output) ↔
          ∃ x, blocks.getLast? = some x ∧ x.failure? b.files = some output ∧ typed = build.typedPath x.missing ∧
            reference = x.missing.reference ∧ referent = x.missing.referent) := by
  intro build start
  refine ⟨fun rs t htrail => htrail.exists_blocks, ?_, ?_⟩
  · intro rs t x output
    exact exists_build_of_requested
  · intro fuel result s' h
    have hplain := b.build_recording fuel root ⟨(disk, []), registry, builds⟩
    rw [h] at hplain
    obtain ⟨error, u, hrun, hdisk, herror⟩ := exists_run_of_build h
    obtain ⟨rs, t, blocks, htrail, hblocks, hends⟩ := Build.exists_blocks_of_run (b := build) hrun
    rw [hdisk]
    refine ⟨hplain.symm, rs, t, blocks, htrail, hblocks, hends.succeeded, ?_⟩
    intro typed reference referent output
    exact (herror _).trans (hends.failed ..)

end Builder

/-! ## A compiler that fails -/

namespace StopsAtFailure

/-- Three modules that can be compiled. -/
def disk : Disk := .ofTexts [(["a.ts"], ""), (["b.ts"], ""), (["c.ts"], "")]

/-- A compiler that lists nothing, and cannot do with the second of the modules. -/
def compiler : Compiler Disk
  | .list typed, d => (if typed = ⟨"/b.ts"⟩ then .failed "b.ts has no types" else ⟨true, "", []⟩, d)
  | .emit _, d => (⟨true, "", [⟨"/a.js"⟩]⟩, d.put ["a.js"] (.file [] false))

def builder : Builder Disk := { Builder.onDisk with compiler := some compiler }

def root : Root := .script "import './a.js'\nimport './b.js'\nimport './c.js'" ⟨"/"⟩

/-- How the build of the root fails. -/
def failure : BuildError := .compileFailure ⟨"/b.ts"⟩ "./b.js" none "b.ts has no types"

/-- What the build fails with, and what its compiler was asked. -/
def end? (o : Outcome (Recorded Disk) Graph) : Option (BuildError × List CompilerRequest) :=
  o.bind fun x =>
    match x.1 with
    | .ok _ => none
    | .error e => some (e, x.2.disk.2.map Exchange.request)

/-- The first module is compiled from its own source, the second cannot be, and the third is not asked for. -/
theorem requests_of_build_failed : ∃ s' rs next blocks x,
    builder.build 3 root ⟨disk, .empty, 0⟩ = some (.error failure, BuildState.unrecorded s') ∧
    s'.disk.2.map Exchange.request = [.list ⟨"/a.ts"⟩, .emit [⟨"/a.ts"⟩], .list ⟨"/b.ts"⟩] ∧
    (builder.buildOf root 0).Blocks ((builder.buildOf root 0).recording.seed root (disk, []) .empty)
      (rs ++ Option.toList next) s'.disk.2 blocks ∧
    blocks.getLast? = some x ∧ x.failure? builder.files = some "b.ts has no types" ∧
    ∃ fuel s'', builder.recording.build fuel root ⟨(disk, []), .empty, 0⟩ = some (.error failure, s'') ∧
      s''.disk.1 = x.after := by
  have hend : end? (builder.recording.build 3 root ⟨(disk, []), .empty, 0⟩) =
      some (failure, [.list ⟨"/a.ts"⟩, .emit [⟨"/a.ts"⟩], .list ⟨"/b.ts"⟩]) := by decide +kernel
  obtain ⟨⟨result, s'⟩, hbuild, hend⟩ := Option.bind_eq_some_iff.mp hend
  cases result with
  | ok g => cases hend
  | error e =>
    simp only [Option.some.injEq, Prod.mk.injEq] at hend
    obtain ⟨rfl, hrequests⟩ := hend
    obtain ⟨-, hfails, hends⟩ := Builder.requests_of_build builder root disk .empty 0
    obtain ⟨hplain, rs, t, blocks, -, hblocks, -, hfailure⟩ := hends 3 _ _ hbuild
    obtain ⟨x, hlast, hfailed, htyped, hreference, hreferent⟩ := (hfailure _ _ _ _).mp rfl
    have hx : x ∈ blocks := List.mem_of_getLast? hlast
    obtain ⟨rs', t', htrail, hturn, hbefore⟩ := hblocks.inTurn x hx
    obtain ⟨fuel, s'', hagain, hdisk⟩ := hfails rs' t' x _ htrail hturn hbefore (hblocks.requested x hx) hfailed
    rw [← htyped, ← hreference, ← hreferent] at hagain
    exact ⟨s', rs, t.pending.head?, blocks, x, hplain, hrequests, hblocks, hlast, hfailed, fuel, s'', hagain,
      by rw [hdisk]⟩

end StopsAtFailure

end CellGraph
