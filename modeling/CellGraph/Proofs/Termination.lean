import CellGraph.Proofs.Places
import CellGraph.Proofs.Provenance
import Mathlib.Data.Set.Finite.List
import Mathlib.Data.Stream.Init
import Mathlib.Order.WellFounded

/-!
# Builds end

A build ends if finitely many files can be read at its start and its compiler, whatever it is asked, succeeds with
finitely many requests and makes finitely many files readable with each (`Builder.ends_of_finite`). Three things run
out, one inside the other. A recovery takes two requests that succeed, and since no path is visited twice, infinitely
many recoveries would be infinitely many different requests (`Build.acc_recovery`). Between recoveries the files stay as
they are, so that finitely many imports can be read, and only what is read lets more resources wait
(`Build.recovers_or_of_step`). Any other visit makes what waits shorter, also where a path leads to nothing. On a `Disk`
there are only finitely many paths that can be read, whatever is on it (`Disk.finite_readable`).
-/

namespace CellGraph

variable {σ : Type}

/-! ## Finitely many paths -/

theorem finite_char : Finite Char :=
  Finite.of_injective (fun c : Char => c.val.toFin) fun _ _ h => Char.ext (UInt32.toFin_inj.mp h)

theorem Path.injective_chars : Function.Injective Path.chars := fun p q h => by
  cases p
  cases q
  exact congrArg Path.mk (String.toList_inj.mp h)

/-- There are finitely many paths up to a length. -/
theorem Path.finite_length_le (n : ℕ) : {p : Path | p.chars.length ≤ n}.Finite :=
  have := finite_char
  (List.finite_length_le Char n).preimage Path.injective_chars.injOn

/-- Finitely many typed sources are those of finitely many modules. -/
theorem finite_recoverable (config : Configuration) {typed : Set Path} (h : typed.Finite) :
    {p : Path | (∃ q : Path, p = q.normalize) ∧ config.isRecoverable p = true ∧
      p.withExtension config.typedExtension ∈ typed}.Finite := by
  refine (h.biUnion fun q _ =>
    Path.finite_length_le (q.chars.length + config.recoverableExtension.toList.length + 1)).subset ?_
  rintro _ ⟨⟨p, rfl⟩, hrecoverable, htyped⟩
  refine Set.mem_biUnion htyped ?_
  have hextension : p.normalize.extension.toList.length = config.recoverableExtension.toList.length := by
    simpa using congrArg List.length (eq_of_beq hrecoverable)
  have hlength := p.length_chars_le config.typedExtension
  rw [hextension] at hlength
  exact hlength

/-! ## Compilers that run out -/

namespace Compiler

/-- The state after the first requests of a sequence. -/
def after (compile : Compiler σ) (requests : ℕ → CompilerRequest) (s : σ) : ℕ → σ
  | 0 => s
  | n + 1 => (compile (requests n) (compile.after requests s n)).2

theorem after_succ (compile : Compiler σ) (requests : ℕ → CompilerRequest) (s : σ) (n : ℕ) :
    compile.after requests s (n + 1) = (compile (requests n) (compile.after requests s n)).2 := rfl

/-- Whether a compiler answers finitely many requests with success, in whatever sequence it is asked. -/
def SucceedsFinitely (compile : Compiler σ) (s : σ) : Prop :=
  ∀ requests : ℕ → CompilerRequest,
    {q | ∃ n, requests n = q ∧ (compile q (compile.after requests s n)).1.success = true}.Finite

theorem exists_interleave {α : Type} (xs ys : ℕ → α) :
    ∃ zs : ℕ → α, (∀ n, zs (2 * n) = xs n) ∧ ∀ n, zs (2 * n + 1) = ys n :=
  ⟨(Stream'.interleave xs ys).get, fun n => Stream'.get_interleave_left n xs ys,
    fun n => Stream'.get_interleave_right n xs ys⟩

/-- A compiler that is asked to list and to write in turn can list what finitely many sources need. -/
theorem SucceedsFinitely.finite_range {compile : Compiler σ} (states : ℕ → σ) (typed : ℕ → Path)
    (sources : ℕ → List Path) (h : compile.SucceedsFinitely (states 0))
    (hlisted : ∀ n, (compile (.list (typed n)) (states n)).1.success = true)
    (hnext : ∀ n, states (n + 1) = (compile (.emit (sources n)) (compile (.list (typed n)) (states n)).2).2) :
    (Set.range typed).Finite := by
  obtain ⟨requests, hlist, hemit⟩ := 
    exists_interleave (fun n => CompilerRequest.list (typed n)) fun n => .emit (sources n)
  have hstates : ∀ n, compile.after requests (states 0) (2 * n) = states n := by
    intro n
    induction n with
    | zero => rfl
    | succ n ih => rw [hnext, ← ih, Nat.mul_succ, after_succ, after_succ, hlist, hemit]
  have hinjective : Function.Injective CompilerRequest.list := fun _ _ h => CompilerRequest.list.inj h
  refine ((h requests).preimage hinjective.injOn).subset ?_
  rintro _ ⟨n, rfl⟩
  exact ⟨2 * n, hlist n, by rw [hstates]; exact hlisted n⟩

end Compiler

namespace Builder

/-- Whether a path is one that a build can visit: a normal form, and absolute if the working directory is. -/
structure CanVisit (b : Builder σ) (p : Path) : Prop where
  normal : ∃ q : Path, p = q.normalize
  absolute : b.workingDirectory.isAbsolute = true → p.isAbsolute = true

/-- The paths that a build can visit and read. -/
def readable (b : Builder σ) (disk : σ) : Set Path :=
  {p | b.CanVisit p ∧ (b.files.readText p disk).isOk = true}

/-- Whether each request to a compiler makes finitely many more files readable. -/
def WritesFinitely (b : Builder σ) (compile : Compiler σ) : Prop :=
  ∀ (q : CompilerRequest) (disk : σ), (b.readable (compile q disk).2 \ b.readable disk).Finite

/-- After a request there are finitely many files that can be read, if there were before. -/
theorem WritesFinitely.finite_readable {b : Builder σ} {compile : Compiler σ} (h : b.WritesFinitely compile) {disk : σ}
    (hdisk : (b.readable disk).Finite) (q : CompilerRequest) : (b.readable (compile q disk).2).Finite :=
  (hdisk.union (h q disk)).subset fun p hp => (Classical.em (p ∈ b.readable disk)).imp id fun hnot => ⟨hp, hnot⟩

end Builder

/-! ## What is visited -/

namespace Path

theorem isAbsolute_absolute {workingDirectory : Path} (h : workingDirectory.isAbsolute = true) (p : Path) :
    (p.absolute workingDirectory).isAbsolute = true :=
  (canonical_normalize_of_isAbsolute (isAbsolute_join h p)).isAbsolute

/-- A file that is read in some dialect has a name, and so the directory it is in. -/
theorem directory_eq_of_dialect? {config : Configuration} {p : Path} {dialect : Dialect}
    (h : config.dialect? p = some dialect) : p.directory = p.parent?.getD ⟨"/"⟩ := by
  have hextension : p.extension ≠ "" := by
    intro hnone
    simp [Configuration.dialect?, Configuration.isModule, Configuration.isScript, Configuration.isDocument,
      Configuration.hasExtension, hnone] at h
  unfold directory
  cases hparent : p.parent? with
  | some parent => rfl
  | none =>
    refine absurd ?_ hextension
    unfold parent? at hparent
    unfold extension extension? fileName?
    split at hparent
    · rename_i hlast
      rw [hlast]
      rfl
    · rename_i hlast
      rw [hlast]
      rfl
    · cases hparent

end Path

/-- A file that can be visited and is read in some dialect is in an absolute directory. -/
theorem Builder.CanVisit.isAbsolute_directory {b : Builder σ} {p : Path} (h : b.CanVisit p) {dialect : Dialect}
    (hdialect : b.config.dialect? p = some dialect) (hworking : b.workingDirectory.isAbsolute = true) :
    p.directory.isAbsolute = true := by
  obtain ⟨q, hq⟩ := h.normal
  have hcanonical : p.Canonical := hq ▸ Path.canonical_normalize (hq ▸ h.absolute hworking)
  rw [Path.directory_eq_of_dialect? hdialect]
  exact hcanonical.parent?_getD.isAbsolute

namespace Build

variable {b : Build σ} {root : Root} {disk : σ} {registry : Registry} {r : Resource} {t u : Traversal σ}

/-- Whether the directories of a build are absolute if the working directory is. -/
def Anchored (b : Build σ) : Prop :=
  b.workingDirectory.isAbsolute = true → b.roots.directory.isAbsolute = true ∧ b.roots.base.isAbsolute = true

theorem anchored_buildOf (b : Builder σ) (root : Root) (number : ℕ) : (b.buildOf root number).Anchored := by
  intro hworking
  have habsolute := Path.isAbsolute_absolute (show b.workingDirectory.isAbsolute = true from hworking)
  simp only [Builder.buildOf, Roots.make]
  refine ⟨habsolute root.directory, ?_⟩
  cases b.config.projectRoot with
  | none => exact habsolute root.directory
  | some p => exact habsolute p

section Anchored

variable (hb : b.Anchored)
include hb

/-- What a reference leads to can be visited. -/
theorem canVisit_of_resource? {origin : Path}
    (horigin : b.workingDirectory.isAbsolute = true → origin.isAbsolute = true)
    {referent : Option Path} {kind : ResourceKind} {written reference : String}
    (h : resource? b.roots origin referent kind written reference = some r) : b.CanVisit r.path := by
  obtain ⟨-, -, -, target, htarget, hpath⟩ := of_resource? h
  rw [← hpath]
  refine ⟨exists_normalize_of_resolve htarget, fun hworking => ?_⟩
  unfold Roots.resolve resolve Encoding.resolve at htarget
  split at htarget
  · rw [← Except.ok.inj htarget]
    dsimp only [Option.getD_some]
    exact (Path.canonical_normalize_of_isAbsolute (Path.isAbsolute_join (hb hworking).2 _)).isAbsolute
  · rw [← Except.ok.inj htarget]
    dsimp only
    exact (Path.canonical_normalize_of_isAbsolute (Path.isAbsolute_join (horigin hworking) _)).isAbsolute
  · cases htarget

theorem canVisit_of_mem_importedBy {p : Path} (hp : b.CanVisit p) {text : String} (h : r ∈ b.importedBy p text) :
    b.CanVisit r.path := by
  unfold importedBy at h
  obtain ⟨source, hmem, hsource⟩ := List.mem_filterMap.mp h
  refine canVisit_of_resource? hb (fun hworking => ?_) hsource
  cases hdialect : b.config.dialect? p with
  | none =>
    unfold readFile at hmem
    rw [hdialect] at hmem
    cases hmem
  | some dialect => exact hp.isAbsolute_directory hdialect hworking

theorem canVisit_of_mem_attachedBy {p : Path} (hp : b.CanVisit p) {text : String} (h : r ∈ b.attachedBy p text) :
    b.CanVisit r.path := by
  unfold attachedBy at h
  split at h
  · rename_i hscript
    obtain ⟨name, -, hname⟩ := List.mem_filterMap.mp h
    obtain ⟨reference, -, hreference⟩ := Option.bind_eq_some_iff.mp hname
    exact canVisit_of_resource? hb (hp.isAbsolute_directory hscript) hreference
  · cases h

theorem canVisit_of_mem_pending_seed (h : r ∈ (b.seed root disk registry).pending) : b.CanVisit r.path := by
  rw [seed_eq] at h
  have hdirectory : b.workingDirectory.isAbsolute = true → b.roots.directory.isAbsolute = true := fun h => (hb h).1
  rcases List.mem_append.mp (mem_of_mem_firstSeen h) with h | h
  · obtain ⟨source, -, hsource⟩ := List.mem_filterMap.mp h
    exact canVisit_of_resource? hb hdirectory hsource
  · obtain ⟨name, -, hname⟩ := List.mem_filterMap.mp h
    obtain ⟨reference, -, hreference⟩ := Option.bind_eq_some_iff.mp hname
    exact canVisit_of_resource? hb hdirectory hreference

/-- What waits after a visit can be visited if all that waited before can be. -/
theorem canVisit_of_step {pending : List Resource} (ht : t.pending = r :: pending)
    (hstep : b.step r { t with pending } = (none, u)) (h : ∀ q ∈ t.pending, b.CanVisit q.path) :
    ∀ q ∈ u.pending, b.CanVisit q.path := by
  rw [ht] at h
  obtain ⟨hr, hrest⟩ := List.forall_mem_cons.mp h
  obtain ⟨new, hvisited⟩ : ∃ new, Visited b r { t with pending } new u := ⟨_, visited_of_step hstep⟩
  cases hvisited with
  | passed => exact hrest
  | checked =>
    rw [visitAttachment_eq]
    exact hrest
  | missing => exact hrest
  | read =>
    intro q hq
    rcases List.mem_append.mp hq with hq | hq
    · exact hrest q hq
    · exact canVisit_of_mem_importedBy hb hr (mem_of_mem_firstSeen hq)

/-- Whatever waits can be visited. -/
theorem canVisit_of_trail {rs : List Resource} (h : b.Trail (b.seed root disk registry) rs t) :
    ∀ r ∈ t.pending, b.CanVisit r.path := by
  induction h with
  | start => exact fun r hr => canVisit_of_mem_pending_seed hb hr
  | @visit rs r u v _ hvisit ih =>
    obtain ⟨pending, hpending, hstep⟩ := hvisit
    exact canVisit_of_step hb hpending hstep ih

end Anchored

/-! ## Recoveries -/

/-- Whether a module is recovered, with the files before and after it. -/
def Recovers (b : Build σ) (r : Resource) (before after : σ) : Prop :=
  ∃ compile m, b.ToRecover r compile before ∧
    Compilation b.files b.roots compile r (b.typedPath r) before (.ok m) after

/-- A recovery takes two requests, and the first one lists what the typed source needs. -/
theorem Recovers.exists_requests {before after : σ} (h : b.Recovers r before after) {compile : Compiler σ}
    (hcompiler : b.compiler = some compile) : ∃ sources, (compile (.list (b.typedPath r)) before).1.success = true ∧
      after = (compile (.emit sources) (compile (.list (b.typedPath r)) before).2).2 := by
  obtain ⟨compile', m, hrecover, hcompile⟩ := h
  cases hcompiler.symm.trans hrecover.compiler
  cases hcompile with
  | @compiled listed _ _ _ hlist hlisted hemit =>
    refine ⟨sourcesToEmit (b.typedPath r) listed, ?_, ?_⟩
    · rw [hlist]
      exact hlisted
    · rw [hlist, hemit]

/-- A visit recovers its module, or leaves the files as they are; then it lets nothing more wait unless its file can be
read. -/
theorem recovers_or_of_step (hpath : r.path.isAmong t.visited = false) (h : b.step r t = (none, u)) :
    b.Recovers r t.disk u.disk ∨
      u.disk = t.disk ∧ (u.pending = t.pending ∨ (b.files.readText r.path t.disk).isOk = true) := by
  cases himport : r.isImport with
  | false =>
    rw [step_of_attachment hpath himport, visitAttachment_eq] at h
    cases h
    exact Or.inr ⟨rfl, Or.inl rfl⟩
  | true =>
    cases hobtain : b.obtainSource r (t.visit r.path) with
    | mk reading v =>
      have hobtained := obtained_of_obtainSource himport hobtain
      -- what follows a module that has been read leaves the files as reading it did
      have hexpand : ∀ {text : String} {siblings : List Resource}, reading = .source text siblings →
          u.disk = v.disk := by
        rintro text siblings rfl
        exact congrArg Footprint.disk (footprint_of_step hpath himport hobtain h)
      rw [step_of_import hpath himport, visitImport, hobtain] at h
      cases hobtained with
      | there hread =>
        refine Or.inr ⟨hexpand rfl, Or.inr ?_⟩
        change b.files.readText r.path t.disk = _ at hread
        rw [hread]
        rfl
      | absent =>
        cases h
        exact Or.inr ⟨rfl, Or.inl rfl⟩
      | failed => cases h
      | compiled hrecover hcompile =>
        rw [hexpand rfl]
        exact Or.inl ⟨_, _, hrecover, hcompile⟩

/-- A run goes on from a traversal by visits that leave the files as they are, and by one that recovers its module. -/
def Recovery (b : Build σ) (u t : Traversal σ) : Prop :=
  ∃ rs v r, b.Trail t rs v ∧ v.disk = t.disk ∧ b.Visits r v u ∧ b.Recovers r v.disk u.disk

/-- Recoveries behind one another are those of different paths, and a run leads to each of them. -/
theorem injective_of_recoveries {f v : ℕ → Traversal σ} {rs : ℕ → List Resource} {r : ℕ → Resource}
    (hstart : f 0 = b.seed root disk registry) (htrail : ∀ n, b.Trail (f n) (rs n) (v n))
    (hvisits : ∀ n, b.Visits (r n) (v n) (f (n + 1))) :
    (∀ n, ∃ turns, b.Trail (b.seed root disk registry) turns (v n)) ∧ Function.Injective fun n => (r n).path := by
  have hturns : ∀ n, ∃ turns, b.Trail (b.seed root disk registry) turns (f n) ∧ ∀ i < n, r i ∈ turns := by
    intro n
    induction n with
    | zero => exact ⟨[], hstart ▸ .start, fun i hi => absurd hi (Nat.not_lt_zero i)⟩
    | succ n ih =>
      obtain ⟨turns, hturns, hmem⟩ := ih
      refine ⟨turns ++ (rs n ++ [r n]), hturns.append ((htrail n).visit (hvisits n)), fun i hi => ?_⟩
      rcases Nat.lt_succ_iff_lt_or_eq.mp hi with hi | rfl
      · exact List.mem_append_left _ (hmem i hi)
      · simp
  have hne : ∀ {i j}, i < j → (r i).path ≠ (r j).path := by
    intro i j hij hpath
    obtain ⟨turns, hturns, hmem⟩ := hturns j
    obtain ⟨pending, hpending, -⟩ := hvisits j
    have honce := ((hturns.append (htrail j)).toured.distinct_turn hpending).sublist (List.sublist_append_right _ _)
    rw [List.map_append, List.map_singleton, distinct_append_singleton, ← hpath,
      isAmong_of_mem (List.mem_map_of_mem (List.mem_append_left _ (hmem i hij)))] at honce
    exact absurd honce.2 (by decide)
  refine ⟨fun n => ?_, fun i j hpath => ?_⟩
  · obtain ⟨turns, hturns, -⟩ := hturns n
    exact ⟨_, hturns.append (htrail n)⟩
  · rcases Nat.lt_trichotomy i j with hij | hij | hij
    · exact absurd hpath (hne hij)
    · exact hij
    · exact absurd hpath.symm (hne hij)

/-- No run has infinitely many recoveries if its compiler succeeds with finitely many requests. -/
theorem acc_recovery (hb : b.Anchored)
    (hcompiler : ∀ compile, b.compiler = some compile → compile.SucceedsFinitely disk) :
    Acc b.Recovery (b.seed root disk registry) := by
  by_contra hnot
  obtain ⟨f, hstart, hchain⟩ := not_acc_iff_exists_descending_chain.mp hnot
  choose rs v r htrail hdisk hvisits hrecovers using hchain
  obtain ⟨hturns, hinjective⟩ := injective_of_recoveries hstart htrail hvisits
  obtain ⟨compile, -, hrecover, -⟩ := hrecovers 0
  choose sources hlisted hnext using fun n => (hrecovers n).exists_requests hrecover.compiler
  have hzero : (v 0).disk = disk := by
    rw [hdisk, hstart, seed_eq]
    rfl
  have htyped : (Set.range fun n => b.typedPath (r n)).Finite := by
    refine Compiler.SucceedsFinitely.finite_range (fun n => (v n).disk) _ sources ?_ hlisted fun n => ?_
    · rw [hzero]
      exact hcompiler compile hrecover.compiler
    · rw [hdisk, hnext]
  -- a typed source is that of finitely many normal paths
  refine Set.infinite_range_of_injective hinjective ((finite_recoverable b.config htyped).subset ?_)
  rintro _ ⟨n, rfl⟩
  obtain ⟨turns, hturns⟩ := hturns n
  obtain ⟨pending, hpending, -⟩ := hvisits n
  obtain ⟨_, _, hrecover, -⟩ := hrecovers n
  exact ⟨(canVisit_of_trail hb hturns (r n) (hpending ▸ List.mem_cons_self)).normal, hrecover.recoverable, n, rfl⟩

/-- After a recovery there are finitely many files that can be read, if there were before. -/
theorem Recovers.finite_readable {before after : σ} (h : b.Recovers r before after)
    (hwrites : ∀ compile, b.compiler = some compile → b.WritesFinitely compile) (hbefore : (b.readable before).Finite) :
    (b.readable after).Finite := by
  have ⟨compile, _, hrecover, _⟩ := h
  obtain ⟨sources, -, rfl⟩ := h.exists_requests hrecover.compiler
  have hwrites := hwrites compile hrecover.compiler
  exact hwrites.finite_readable (hwrites.finite_readable hbefore _) _

/-- A run ends that has finitely many recoveries, each of which makes finitely many files readable. -/
theorem ends_of_acc (hb : b.Anchored) (hwrites : ∀ compile, b.compiler = some compile → b.WritesFinitely compile)
    (hacc : Acc b.Recovery t) {turns : List Resource} (htrail : b.Trail (b.seed root disk registry) turns t)
    (hfinite : (b.readable t.disk).Finite) : b.Ends t := by
  induction hacc generalizing turns with
  | intro t _ ih =>
    -- up to the next recovery, files that can be read are visited or what waits gets shorter
    refine ends_of_visits (P := fun v => ∃ rs, b.Trail t rs v ∧ v.disk = t.disk) hfinite.toFinset.toList ?_
      ⟨[], .start, rfl⟩
    rintro r v u ⟨rs, hrs, hdisk⟩ hvisits
    have hv := htrail.append hrs
    have ⟨pending, hpending, hstep⟩ := hvisits
    have hpath := hv.toured.not_visited hpending
    rcases recovers_or_of_step (t := { v with pending }) hpath hstep with hrecovers | ⟨hsame, hcases⟩
    · refine Or.inl (ih u ⟨rs, v, r, hrs, hdisk, hvisits, hrecovers⟩ (hv.visit hvisits) ?_)
      refine hrecovers.finite_readable hwrites ?_
      change (b.readable v.disk).Finite
      rwa [hdisk]
    · have hsubset : v.visited ++ [r.path] ⊆ u.visited :=
        (visited_of_step (t := { v with pending }) hstep).subset_visited hpath
      refine Or.inr ⟨⟨rs ++ [r], hrs.visit hvisits, hsame.trans hdisk⟩,
        fun p hp => isAmong_mono (List.append_subset.mp hsubset).1 hp, ?_⟩
      rcases hcases with htail | hread
      · exact Or.inl (by rw [hpending]; exact htail)
      · refine Or.inr ⟨isAmong_of_mem ?_, hpath, isAmong_of_mem (hsubset (by simp))⟩
        have hvisit := canVisit_of_trail hb hv r (hpending ▸ List.mem_cons_self)
        change (b.files.readText r.path v.disk).isOk = true at hread
        rw [hdisk] at hread
        simpa using (show r.path ∈ b.readable t.disk from ⟨hvisit, hread⟩)

end Build

namespace Builder

/-- A build ends if finitely many of the paths it can visit can be read at its start, and if its compiler succeeds with
finitely many requests and makes finitely many files readable with each. It visits no path twice. -/
theorem ends_of_finite (b : Builder σ) (root : Root) (s : BuildState σ) (hread : (b.readable s.disk).Finite)
    (hcompiler : ∀ compile, b.compiler = some compile → compile.SucceedsFinitely s.disk ∧ b.WritesFinitely compile) :
    let build := b.buildOf root s.builds
    let start := build.seed root s.disk s.registry
    build.Ends start ∧ ∀ rs t r pending, build.Trail start rs t → t.pending = r :: pending →
      Distinct ((rs ++ [r]).map Resource.path) := by
  intro build start
  have hanchored : build.Anchored := Build.anchored_buildOf b root s.builds
  have hdisk : start.disk = s.disk := congrArg Footprint.disk (build.footprint_seed root s.disk s.registry)
  constructor
  · have hacc : Acc build.Recovery start := Build.acc_recovery hanchored fun compile h => (hcompiler compile h).1
    refine Build.ends_of_acc hanchored (fun compile h => (hcompiler compile h).2) hacc .start ?_
    rw [hdisk]
    exact hread
  · intro rs t r pending htrail hpending
    exact (htrail.toured.distinct_turn hpending).sublist (List.sublist_append_right _ _)

end Builder

/-! ## Disks -/

theorem Text.length_le_byteLength (text : List Char) : text.length ≤ byteLength text := by
  induction text with
  | nil => exact Nat.le_refl _
  | cons c cs ih =>
    have hc : 0 < c.utf8Size := c.utf8Size_pos
    rw [List.length_cons, byteLength]
    omega

/-- A path that can be read is not too long. -/
theorem Disk.finite_readable (d : Disk) : {p | (Disk.fileSystem.readText p d).isOk = true}.Finite := by
  refine (Path.finite_length_le maxPath).subset fun p hp => ?_
  cases hread : fileSystem.readText p d with
  | error e =>
    change (fileSystem.readText p d).isOk = true at hp
    rw [hread] at hp
    cases hp
  | ok text =>
    obtain ⟨place, hplace, -⟩ := isFile_iff.mp (isFile_of_readText hread)
    have hcheck := (locate_eq_ok_iff.mp hplace).1
    unfold checkPath at hcheck
    split_ifs at hcheck with _ _ hlength
    exact (Text.length_le_byteLength p.chars).trans (Nat.le_of_lt (Nat.not_le.mp hlength))

/-! ## Modules that are compiled and import themselves -/

namespace CompiledOnce

/-- A module that can be compiled, and one that imports the compiled module. -/
def disk : Disk := .ofTexts [(["a.ts"], ""), (["b.js"], "import './a.js'")]

/-- The requests that are answered. -/
def answered : List CompilerRequest := [.list ⟨"/a.ts"⟩, .emit [⟨"/a.ts"⟩]]

/-- A compiler of one source, whose module imports itself, the other module, and one that is not there. -/
def compiler : Compiler Disk := fun q d =>
  if q ∈ answered then
    match q with
    | .list _ => (⟨true, "", []⟩, d)
    | .emit _ => (⟨true, "", [⟨"/a.js"⟩]⟩,
        d.put ["a.js"] (.file (Text.encode "import './a.js'\nimport './b.js'\nimport './c.js'") false))
  else (.failed "no source", d)

theorem mem_answered_of_success {q : CompilerRequest} {d : Disk} (h : (compiler q d).1.success = true) :
    q ∈ answered := by
  by_contra hq
  unfold compiler at h
  rw [if_neg hq] at h
  cases h

def builder : Builder Disk := { Builder.onDisk with compiler := some compiler }

def root : Root := .script "import './a.js'" ⟨"/"⟩

/-- The build ends with both modules. -/
theorem ends_compiled : (builder.buildOf root 0).Ends ((builder.buildOf root 0).seed root disk .empty) ∧
    (builder.build 3 root ⟨disk, .empty, 0⟩).paths? = some [⟨"/a.js"⟩, ⟨"/b.js"⟩] := by
  have hreadable : ∀ d : Disk, (builder.readable d).Finite := fun d => d.finite_readable.subset fun p hp => hp.2
  have hcompiler : ∀ compile, builder.compiler = some compile →
      compile.SucceedsFinitely disk ∧ builder.WritesFinitely compile := by
    rintro _ ⟨⟩
    refine ⟨fun requests => answered.finite_toSet.subset ?_, fun q d => (hreadable _).subset Set.sdiff_subset⟩
    rintro q ⟨n, -, hsuccess⟩
    exact mem_answered_of_success hsuccess
  exact ⟨(Builder.ends_of_finite builder root ⟨disk, .empty, 0⟩ (hreadable disk) hcompiler).1, by decide +kernel⟩

end CompiledOnce

end CellGraph
