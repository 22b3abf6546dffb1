import CellGraph.Proofs.Undoing

/-!
# Sessions of builds

Builds and cleanups follow one another on the same files and registry. Since no two builds have the same name, what is
registered for a build in a session is what was compiled for it, until it is cleaned up
(`Session.orderly_of_reachable`). But a file that was compiled for one build is a module like any other for the next
one. A cleanup removes what the compiled files of its build name, and so it spares the resources of other builds just if
they are not found there (`Session.spares_iff`, `Shared.not_spared`).
-/

namespace CellGraph

/-! ## Names of builds -/

namespace Root

/-- The name of a build ends with the digits of its number. -/
theorem takeWhile_buildId (root : Root) (n : Nat) :
    (root.buildId n).toList.reverse.takeWhile (· != '-') = (Nat.toDigits 10 n).reverse := by
  have hdigits : ∀ c ∈ (Nat.toDigits 10 n).reverse, (c != '-') = true := by
    intro c hc
    have hdigit := Nat.isDigit_of_mem_toDigits (by decide) (by decide) (List.mem_reverse.mp hc)
    rw [bne_iff_ne]
    rintro rfl
    cases hdigit
  rw [buildId, String.toList_append, String.toList_append, List.reverse_append, List.reverse_append,
    Nat.toString_eq_repr, Nat.toList_repr, List.takeWhile_append_of_pos hdigits]
  exact List.append_nil _

/-- Builds with different numbers have different names. -/
theorem eq_of_buildId_eq {root root' : Root} {n n' : Nat} (h : root.buildId n = root'.buildId n') : n = n' := by
  have hdigits := takeWhile_buildId root n
  rw [h, takeWhile_buildId] at hdigits
  have hnumber := congrArg (Nat.ofDigitChars 10 · 0) (List.reverse_injective hdigits)
  simpa only [Nat.ofDigitChars_ten_toDigits] using hnumber.symm

end Root

/-! ## Sessions -/

variable {σ : Type}

/-- What a session has come to: the state that its builds share, the graphs of those that came to one, and which of them
have not been cleaned up since. -/
structure Session (σ : Type) where
  state : BuildState σ
  graphs : List Graph
  live : List Graph

namespace Session

/-- A session before its first build. -/
def start (disk : σ) : Session σ := ⟨⟨disk, .empty, 0⟩, [], []⟩

/-- One step of a session: a build that comes to a graph, one that fails, or a cleanup. -/
inductive Step (fs : FileSystem σ) (u : Session σ) : Session σ → Prop
  | built {b : Builder σ} {fuel : Nat} {root : Root} {g : Graph} {s : BuildState σ} (hfiles : b.files = fs)
      (hb : b.registers = true) (h : b.build fuel root u.state = some (.ok g, s)) :
      Step fs u ⟨s, u.graphs ++ [g], u.live ++ [g]⟩
  | failed {b : Builder σ} {fuel : Nat} {root : Root} {e : BuildError} {s : BuildState σ} (hfiles : b.files = fs)
      (hb : b.registers = true) (h : b.build fuel root u.state = some (.error e, s)) :
      Step fs u { u with state := s }
  | cleaned {id : String} {count : Nat} {registry : Registry} {disk : σ}
      (h : u.state.registry.cleanup fs id u.state.disk = (count, registry, disk)) :
      Step fs u ⟨⟨disk, registry, u.state.builds⟩, u.graphs, u.live.filter (·.buildId != id)⟩

/-- The sessions that steps lead to. -/
inductive Reachable (fs : FileSystem σ) : Session σ → Prop
  | start (disk : σ) : Reachable fs (start disk)
  | step {u v : Session σ} (h : Reachable fs u) (hstep : u.Step fs v) : Reachable fs v

/-- Registered is what was compiled for the builds that came to a graph and have not been cleaned up; nothing is for
those to come. -/
structure Orderly (u : Session σ) : Prop where
  fresh : ∀ (root : Root) (n : Nat), u.state.builds ≤ n → u.state.registry.registered (root.buildId n) = []
  begun : ∀ g ∈ u.graphs, ∃ (root : Root) (n : Nat), n < u.state.builds ∧ g.buildId = root.buildId n
  subset : u.live ⊆ u.graphs
  live : ∀ g ∈ u.live, u.state.registry.registered g.buildId = g.compiledFiles
  cleaned : ∀ g ∈ u.graphs, g ∉ u.live → u.state.registry.registered g.buildId = []

theorem orderly_start (disk : σ) : (start disk).Orderly where
  fresh _ _ _ := rfl
  begun _ hg := nomatch hg
  subset := List.Subset.refl _
  live _ hg := nomatch hg
  cleaned _ hg := nomatch hg

/-- A build, whatever comes of it, has a name of its own and leaves what is registered for others. -/
theorem Orderly.build {u : Session σ} (h : u.Orderly) {b : Builder σ} {fuel : Nat} {root : Root}
    {result : Except BuildError Graph} {s : BuildState σ} (hbuild : b.build fuel root u.state = some (result, s)) :
    Orderly { u with state := s } := by
  obtain ⟨hbuilds, hothers⟩ := Builder.others_of_build hbuild
  have hregistered : ∀ g ∈ u.graphs, s.registry.registered g.buildId = u.state.registry.registered g.buildId := by
    intro g hg
    obtain ⟨root', n, hn, hid⟩ := h.begun g hg
    refine hothers _ fun heq => ?_
    have := Root.eq_of_buildId_eq (hid ▸ heq)
    omega
  refine ⟨fun root' n hn => ?_, fun g hg => ?_, h.subset, fun g hg => ?_, fun g hg hlive => ?_⟩
  · dsimp only at hn ⊢
    rw [hothers, h.fresh]
    · omega
    · intro heq
      have := Root.eq_of_buildId_eq heq
      omega
  · obtain ⟨root', n, hn, hid⟩ := h.begun g hg
    exact ⟨root', n, by dsimp only; omega, hid⟩
  · exact (hregistered g (h.subset hg)).trans (h.live g hg)
  · exact (hregistered g hg).trans (h.cleaned g hg hlive)

/-- A build that comes to a graph registers what was compiled for it. -/
theorem Orderly.built {u : Session σ} (h : u.Orderly) {b : Builder σ} (hb : b.registers = true) {fuel : Nat}
    {root : Root}
    {g : Graph} {s : BuildState σ} (hbuild : b.build fuel root u.state = some (.ok g, s)) :
    Orderly ⟨s, u.graphs ++ [g], u.live ++ [g]⟩ := by
  have hs := h.build hbuild
  obtain ⟨hid, hregistered⟩ := Builder.registered_of_build hb (h.fresh root _ le_rfl) hbuild
  refine ⟨hs.fresh, fun g' hg' => ?_, ?_, fun g' hg' => ?_, fun g' hg' hlive => ?_⟩
  · rcases List.mem_append.mp hg' with hg' | hg'
    · exact hs.begun g' hg'
    · rw [List.mem_singleton.mp hg']
      exact ⟨root, _, (Builder.others_of_build hbuild).1 ▸ Nat.lt_succ_self _, hid⟩
  · exact List.append_subset.mpr ⟨List.subset_append_of_subset_left _ h.subset, List.subset_append_right _ _⟩
  · rcases List.mem_append.mp hg' with hg' | hg'
    · exact hs.live g' hg'
    · rw [List.mem_singleton.mp hg']
      exact hregistered
  · rw [List.mem_append, not_or] at hlive
    exact hs.cleaned g' ((List.mem_append.mp hg').resolve_right hlive.2) hlive.1

/-- A cleanup leaves nothing registered under its name, and under others all that was. -/
theorem Orderly.erase {u : Session σ} (h : u.Orderly) (id : String) (disk : σ) :
    Orderly ⟨⟨disk, u.state.registry.erase id, u.state.builds⟩, u.graphs, u.live.filter (·.buildId != id)⟩ := by
  refine ⟨fun root n hn => ?_, h.begun, fun g hg => h.subset (List.mem_of_mem_filter hg), fun g hg => ?_,
    fun g hg hlive => ?_⟩
  · by_cases hid : root.buildId n = id
    · rw [hid]
      exact Registry.registered_erase _ _
    · exact (Registry.registered_erase_of_ne _ hid).trans (h.fresh root n hn)
  · obtain ⟨hg, hid⟩ := List.mem_filter.mp hg
    exact (Registry.registered_erase_of_ne _ (bne_iff_ne.mp hid)).trans (h.live g hg)
  · by_cases hid : g.buildId = id
    · rw [hid]
      exact Registry.registered_erase _ _
    · refine (Registry.registered_erase_of_ne _ hid).trans (h.cleaned g hg fun hold => hlive ?_)
      exact List.mem_filter.mpr ⟨hold, bne_iff_ne.mpr hid⟩

theorem Orderly.step {fs : FileSystem σ} {u v : Session σ} (h : u.Orderly) (hstep : u.Step fs v) : v.Orderly := by
  cases hstep with
  | built _ hb hbuild => exact h.built hb hbuild
  | failed _ _ hbuild => exact h.build hbuild
  | @cleaned id count registry disk hcleanup =>
    obtain rfl : u.state.registry.erase id = registry := congrArg (·.2.1) hcleanup
    exact h.erase id disk

theorem orderly_of_reachable {fs : FileSystem σ} {u : Session σ} (h : u.Reachable fs) : u.Orderly := by
  induction h with
  | start disk => exact orderly_start disk
  | step _ hstep ih => exact ih.step hstep

/-! ## What a cleanup spares -/

section Cleanup

variable {u : Session Disk} {g : Graph} {count : Nat} {registry : Registry} {after : Disk}

/-- Whether a cleanup after a build leaves the resources of all other builds that have not been cleaned up. -/
def Spares (u : Session Disk) (g : Graph) (after : Disk) : Prop :=
  ∀ other ∈ u.live, other.buildId ≠ g.buildId → ∀ r ∈ other.resources, u.state.disk.isFile r.path = true →
    after.isFile r.path = true

/-- Whether a resource is a file that a compiled file of a build names. -/
def CompiledFor (d : Disk) (g : Graph) (r : Resource) : Prop :=
  ∃ x, d.locate r.path = .ok x ∧ d.fileAt x = true ∧ d.Names g.compiledFiles x

/-- A cleanup removes the files that were compiled for its build, unless it has been cleaned up before. -/
theorem eq_without_of_cleanup (h : u.Orderly) (hg : g ∈ u.graphs)
    (hcleanup : u.state.registry.cleanup Disk.fileSystem g.buildId u.state.disk = (count, registry, after)) :
    g ∈ u.live ∧ after = u.state.disk.without g.compiledFiles ∨ g ∉ u.live ∧ after = u.state.disk := by
  have hafter : after = u.state.disk.without (u.state.registry.registered g.buildId) :=
    (congrArg (·.2.2) hcleanup).symm
  by_cases hlive : g ∈ u.live
  · exact Or.inl ⟨hlive, by rw [hafter, h.live g hlive]⟩
  · exact Or.inr ⟨hlive, by rw [hafter, h.cleaned g hg hlive, Disk.without_nil]⟩

/-- All that a cleanup takes from the disk the compiled files of its build name. If they name no links, the resources of
all other builds are spared just if none of them has been compiled for the build that is cleaned up. -/
theorem spares_iff (h : u.Reachable Disk.fileSystem) (hd : u.state.disk.WellFormed) (hg : g ∈ u.graphs)
    (hcleanup : u.state.registry.cleanup Disk.fileSystem g.buildId u.state.disk = (count, registry, after)) :
    (∀ x, u.state.disk.Holds x → ¬ after.Holds x → u.state.disk.Names g.compiledFiles x) ∧
    ((∀ x, u.state.disk.Names g.compiledFiles x → ¬ u.state.disk.IsLink x) →
      (u.Spares g after ↔ (g ∈ u.live → ∀ other ∈ u.live, other.buildId ≠ g.buildId → ∀ r ∈ other.resources,
        ¬ CompiledFor u.state.disk g r))) := by
  rcases eq_without_of_cleanup (orderly_of_reachable h) hg hcleanup with ⟨hlive, rfl⟩ | ⟨hlive, rfl⟩
  · constructor
    · intro x hx hgone
      by_contra hnamed
      exact hgone (Disk.holds_without hd hx hnamed)
    · intro hlinks
      refine ⟨fun hspares _ other hother hne r hr hcompiled => ?_, fun hnone other hother hne r hr hfile => ?_⟩
      · obtain ⟨x, hx, hfile, hnamed⟩ := hcompiled
        have hstays := hspares other hother hne r hr (Disk.isFile_iff.mpr ⟨x, hx, hfile⟩)
        obtain ⟨y, hy, -, hkept⟩ := (Disk.isFile_without_iff hd hlinks).mp hstays
        obtain rfl : x = y := Except.ok.inj (hx.symm.trans hy)
        exact hkept hnamed
      · obtain ⟨x, hx, hfileAt⟩ := Disk.isFile_iff.mp hfile
        refine (Disk.isFile_without_iff hd hlinks).mpr ⟨x, hx, hfileAt, fun hnamed => ?_⟩
        exact hnone hlive other hother hne r hr ⟨x, hx, hfileAt, hnamed⟩
  · exact ⟨fun x hx hgone => absurd hx hgone, fun _ => ⟨fun _ h => absurd h hlive, fun _ _ _ _ _ _ h => h⟩⟩

end Cleanup

end Session

/-! ## Modules that builds share -/

namespace Shared

/-- A module that can be compiled. -/
def disk : Disk := .ofTexts [(["a.ts"], "")]

/-- A compiler that writes the module. -/
def compiler : Compiler Disk
  | .list typed, d => (⟨true, "", [typed]⟩, d)
  | .emit _, d => (⟨true, "", [⟨"/a.js"⟩]⟩, d.put ["a.js"] (.file [] false))

def builder : Builder Disk := { Builder.onDisk with compiler := some compiler, registers := true }

/-- Two documents that import the module. -/
def first : Root := .script "import './a.js'" ⟨"/"⟩

def second : Root := .script "import * as a from './a.js'" ⟨"/"⟩

/-- The graphs of both documents, built in turn, and the state after. -/
def both? : Option (Graph × Graph × BuildState Disk) :=
  match builder.build 2 first ⟨disk, .empty, 0⟩ with
  | some (.ok g, s) =>
    match builder.build 2 second s with
    | some (.ok other, s') => some (g, other, s')
    | _ => none
  | _ => none

theorem reachable_of_both? {g other : Graph} {s : BuildState Disk} (h : both? = some (g, other, s)) :
    Session.Reachable Disk.fileSystem ⟨s, [g, other], [g, other]⟩ := by
  unfold both? at h
  split at h
  · rename_i g₁ s₁ hfirst
    split at h
    · rename_i g₂ s₂ hsecond
      cases h
      exact ((Session.Reachable.start disk).step (.built rfl rfl hfirst)).step (.built rfl rfl hsecond)
    · cases h
  · cases h

/-- What is compiled for the first document, the resources of the second one, the disk after, and whether the builds
have different names. -/
def summary (g other : Graph) (s : BuildState Disk) : List Path × List Path × Disk × Bool :=
  (g.compiledFiles, other.resources.map Resource.path, s.disk, other.buildId != g.buildId)

/-- The second document loses its module when the first one is cleaned up. -/
theorem not_spared : ∃ (u : Session Disk) (g : Graph) (count : Nat) (registry : Registry) (after : Disk),
    u.Reachable Disk.fileSystem ∧ g ∈ u.live ∧
    u.state.registry.cleanup Disk.fileSystem g.buildId u.state.disk = (count, registry, after) ∧
    ¬ u.Spares g after := by
  have hsummary : both?.map (fun x => summary x.1 x.2.1 x.2.2) =
      some ([⟨"/a.js"⟩], [⟨"/a.js"⟩], disk.put ["a.js"] (.file [] false), true) := by decide +kernel
  obtain ⟨⟨g, other, s⟩, hboth, hsummary⟩ := Option.map_eq_some_iff.mp hsummary
  simp only [summary, Prod.mk.injEq] at hsummary
  obtain ⟨hcompiled, hresources, hdisk, hne⟩ := hsummary
  obtain ⟨r, hr, hpath⟩ := List.mem_map.mp (hresources ▸ List.mem_singleton_self _ : (⟨"/a.js"⟩ : Path) ∈ _)
  have hreachable := reachable_of_both? hboth
  refine ⟨_, g, _, _, _, hreachable, List.mem_cons_self, rfl, fun hspares => ?_⟩
  have hd : s.disk.WellFormed := by
    rw [hdisk]
    decide
  obtain ⟨-, hiff⟩ := Session.spares_iff hreachable hd List.mem_cons_self rfl
  have hnamed : s.disk.entryPlace ⟨"/a.js"⟩ = .ok ["a.js"] := by
    rw [hdisk]
    rfl
  have hlinks : ∀ x, s.disk.Names g.compiledFiles x → ¬ s.disk.IsLink x := by
    rintro x ⟨p, hp, hx⟩ ⟨target, hlink⟩
    rw [hcompiled, List.mem_singleton] at hp
    subst hp
    obtain rfl := Except.ok.inj (hnamed.symm.trans hx)
    rw [hdisk] at hlink
    cases hlink
  have hcompiledFor : Session.CompiledFor s.disk g r := by
    refine ⟨["a.js"], ?_, ?_, ⟨"/a.js"⟩, ?_, hnamed⟩
    · rw [hpath, hdisk]
      rfl
    · rw [hdisk]
      rfl
    · rw [hcompiled]
      exact List.mem_singleton_self _
  exact (hiff hlinks).mp hspares List.mem_cons_self other (List.mem_cons_of_mem _ List.mem_cons_self)
    (bne_iff_ne.mp hne) r hr hcompiledFor

end Shared

end CellGraph
