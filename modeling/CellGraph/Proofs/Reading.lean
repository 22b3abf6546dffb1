import CellGraph.Build.Builder
import CellGraph.Disk.Update
import CellGraph.Proofs.Progress
import CellGraph.Proofs.Run

/-!
# Builds are readings

Without a compiler a build comes to what the files say of its root (`Builder.build_eq_reading`): to the graph of the
last round of `discovered`, or to the first of the kept references that leads to a file which can be read in no dialect.
It comes to one of them if finitely many files can be read.

What a root refers to counts for its cells alone: its own file is not read when something imports it, and a reading
that did so would find more (`RootAgain.not_reads_root_again`).
-/

namespace CellGraph

variable {σ : Type}

/-- A graph under another name. -/
def Graph.named (g : Graph) (id : String) : Graph := { g with buildId := id }

namespace Build

variable {b : Build σ} {root : Root} {disk : σ} {registry : Registry} {skipped : List Path}

/-! ## The first resource without a dialect -/

theorem lacksDialect_of_attached {r : Resource} (h : r.isImport = false) : b.lacksDialect disk r = false := by
  simp [lacksDialect, textOf?, h]

/-- Attachments have no part in what lacks a dialect. -/
theorem find?_kept (n : Nat) : (b.kept root disk skipped n).find? (b.lacksDialect disk) =
    (firstSeen (b.rootPath root).toList (b.discovered root disk skipped n)).find? (b.lacksDialect disk) := by
  unfold kept stream
  rw [firstSeen_append, List.find?_append]
  refine Option.or_eq_left_of_none (List.find?_eq_none.mpr fun r hr => ?_)
  obtain ⟨m, -, hm⟩ := List.mem_flatMap.mp (mem_of_mem_firstSeen hr)
  rw [lacksDialect_of_attached (isImport_of_mem_attachmentsOf hm)]
  exact Bool.false_ne_true

/-- A later round finds the same first resource without a dialect. -/
theorem find?_kept_mono {m n : Nat} (h : m ≤ n) {r : Resource}
    (hr : (b.kept root disk skipped m).find? (b.lacksDialect disk) = some r) :
    (b.kept root disk skipped n).find? (b.lacksDialect disk) = some r := by
  rw [find?_kept] at hr ⊢
  exact (firstSeen_isPrefix (b.discovered_isPrefix h)).find?_eq_some hr

/-- Rounds agree on the first resource without a dialect. -/
theorem find?_kept_unique {m n : Nat} {r x : Resource}
    (hr : (b.kept root disk skipped m).find? (b.lacksDialect disk) = some r)
    (hx : (b.kept root disk skipped n).find? (b.lacksDialect disk) = some x) : r = x := by
  rcases Nat.le_total m n with h | h
  · exact Option.some.inj ((find?_kept_mono h hr).symm.trans hx)
  · exact Option.some.inj (hr.symm.trans (find?_kept_mono h hx))

/-- The last round finds it if any round does. -/
theorem find?_kept_of_exhausted {m n : Nat} (h : b.Exhausted root disk skipped m) {r : Resource}
    (hr : (b.kept root disk skipped n).find? (b.lacksDialect disk) = some r) :
    (b.kept root disk skipped m).find? (b.lacksDialect disk) = some r := by
  rw [find?_kept] at hr ⊢
  exact (firstSeen_isPrefix (b.discovered_isPrefix_of_exhausted h n)).find?_eq_some hr

/-! ## What runs come to -/

section Progress

variable {done : List Resource} {t : Traversal σ}

/-- Nothing that is done lacks a dialect. -/
theorem Progress.find?_done (h : Progress b root disk registry done t) :
    done.find? (b.lacksDialect disk) = none :=
  List.find?_eq_none.mpr fun r hr => by simp [h.dialects r hr]

/-- What is done are the first references, as far as the visits went. -/
theorem Progress.isPrefix (h : Progress b root disk registry done t) :
    done <+: firstSeen (b.rootPath root).toList (b.discovered root disk (b.rootPath root).toList done.length) :=
  (h.waits ▸ List.prefix_append _ _).trans (firstSeen_isPrefix h.early)

/-- If there are no more first references, the visits come to an end. -/
theorem Progress.length_le_of_exhausted (h : Progress b root disk registry done t) {n : Nat}
    (hn : b.Exhausted root disk (b.rootPath root).toList n) : done.length ≤
      (firstSeen (b.rootPath root).toList (b.discovered root disk (b.rootPath root).toList n)).length :=
  (h.isPrefix.trans (firstSeen_isPrefix (b.discovered_isPrefix_of_exhausted hn _))).length_le

/-- The visits do not get past a reference that lacks a dialect. -/
theorem Progress.length_lt_of_find? (h : Progress b root disk registry done t) {n : Nat} {r : Resource}
    (hr : (b.kept root disk (b.rootPath root).toList n).find? (b.lacksDialect disk) = some r) : done.length <
      (firstSeen (b.rootPath root).toList (b.discovered root disk (b.rootPath root).toList n)).length := by
  rw [find?_kept] at hr
  by_contra hlength
  rw [Nat.not_lt] at hlength
  -- both are prefixes of what the later of the two rounds keeps
  have hround : firstSeen (b.rootPath root).toList (b.discovered root disk (b.rootPath root).toList n) <+: done :=
    List.prefix_of_prefix_length_le
      (firstSeen_isPrefix (b.discovered_isPrefix (Nat.le_max_left n done.length)))
      (h.isPrefix.trans (firstSeen_isPrefix (b.discovered_isPrefix (Nat.le_max_right n done.length)))) hlength
  have hdone : done.find? (b.lacksDialect disk) = some r := hround.find?_eq_some hr
  rw [h.find?_done] at hdone
  cases hdone

/-- What waits was found in one of the rounds. -/
theorem Progress.mem_discovered (h : Progress b root disk registry done t) {r : Resource} (hr : r ∈ t.pending) :
    r ∈ b.discovered root disk (b.rootPath root).toList done.length :=
  h.early.subset (mem_of_mem_firstSeen (h.waits ▸ List.mem_append_right _ hr))

end Progress

/-- Whether the references lead to finitely many files that can be read. -/
def ReadsFinitely (b : Build σ) (root : Root) (disk : σ) (skipped : List Path) : Prop :=
  ∃ paths : List Path, ∀ n, ∀ r ∈ b.discovered root disk skipped n, (b.textOf? disk r).isSome = true → r.path ∈ paths

/-- A run ends if it leads to finitely many files that can be read. -/
theorem ReadsFinitely.ends (hb : b.compiler = none) (registry : Registry)
    (h : b.ReadsFinitely root disk (b.rootPath root).toList) : b.Ends (b.seed root disk registry) := by
  obtain ⟨paths, hpaths⟩ := h
  refine ends_of_visits (P := fun t => ∃ done, Progress b root disk registry done t) paths ?_ ⟨[], .seed ..⟩
  rintro r t u ⟨done, h⟩ ⟨pending, ht, hstep⟩
  have hu : Progress b root disk registry (done ++ [r]) u := h.of_visits hb ⟨pending, ht, hstep⟩
  refine Or.inr ⟨⟨_, hu⟩, fun p hp => ?_, ?_⟩
  · rw [h.visited] at hp
    rw [hu.visited, List.map_append, ← List.append_assoc, isAmong_append, hp]
    rfl
  · cases htext : b.textOf? disk r with
    | none => exact Or.inl (h.pending_eq_tail ht hu htext)
    | some text =>
      have hpath : r.path ∈ paths := hpaths _ r (h.mem_discovered (ht ▸ List.mem_cons_self)) (by rw [htext]; rfl)
      refine Or.inr ⟨isAmong_of_mem hpath, h.not_visited ht, ?_⟩
      rw [hu.visited]
      exact isAmong_of_mem (by simp)

/-- What the files say of a root: the graph of the last round, or the first reference to a file without a dialect. -/
def Reads (b : Build σ) (root : Root) (disk : σ) (skipped : List Path) : Except BuildError Graph → Prop
  | .ok g => ∃ n, b.Exhausted root disk skipped n ∧
      (b.kept root disk skipped n).find? (b.lacksDialect disk) = none ∧ g = b.reading root disk skipped n
  | .error e => ∃ n r, (b.kept root disk skipped n).find? (b.lacksDialect disk) = some r ∧ e = .unknownDialect r.path

theorem Reads.not_error_of_ok {g : Graph} {e : BuildError} (hg : b.Reads root disk skipped (.ok g)) :
    ¬ b.Reads root disk skipped (.error e) := by
  rintro ⟨n, r, hr, -⟩
  obtain ⟨m, hm, hnone, -⟩ := hg
  rw [find?_kept_of_exhausted hm hr] at hnone
  cases hnone

/-- The files say one thing. -/
theorem Reads.unique {x y : Except BuildError Graph} (hx : b.Reads root disk skipped x)
    (hy : b.Reads root disk skipped y) : x = y := by
  cases x with
  | ok g =>
    cases y with
    | ok g' =>
      obtain ⟨m, hm, -, rfl⟩ := hx
      obtain ⟨n, hn, -, rfl⟩ := hy
      exact congrArg Except.ok (b.reading_eq_reading hm hn)
    | error e => exact absurd hy hx.not_error_of_ok
  | error e =>
    cases y with
    | ok g => exact absurd hx hy.not_error_of_ok
    | error e' =>
      obtain ⟨m, r, hr, rfl⟩ := hx
      obtain ⟨n, r', hr', rfl⟩ := hy
      rw [find?_kept_unique hr hr']

/-- A run ends with so much fuel that no traversal visits as many resources. -/
theorem exists_run_of_length_ne (hb : b.compiler = none) (fuel : Nat) (h : ∀ {done : List Resource} {t : Traversal σ},
    Progress b root disk registry done t → done.length ≠ fuel) :
    ∃ result, b.run fuel (b.seed root disk registry) = some result := by
  have hends := (Progress.seed b root disk registry).run hb fuel
  cases hrun : b.run fuel (b.seed root disk registry) with
  | some result => exact ⟨result, rfl⟩
  | none =>
    rw [hrun] at hends
    obtain ⟨done, t, hprogress, hlength⟩ := hends
    rw [List.length_nil, Nat.zero_add] at hlength
    exact absurd hlength (h hprogress)

/-- There is enough fuel for what the files say. -/
theorem Reads.ends (hb : b.compiler = none) (registry : Registry) {x : Except BuildError Graph}
    (h : b.Reads root disk (b.rootPath root).toList x) : b.Ends (b.seed root disk registry) := by
  cases x with
  | ok g =>
    obtain ⟨n, hn, -, -⟩ := h
    have hbound := fun {done t} (h : Progress b root disk registry done t) => h.length_le_of_exhausted hn
    exact ⟨_, exists_run_of_length_ne hb _ fun h => Nat.ne_of_lt (Nat.lt_succ_of_le (hbound h))⟩
  | error e =>
    obtain ⟨n, r, hr, -⟩ := h
    have hbound := fun {done t} (h : Progress b root disk registry done t) => h.length_lt_of_find? hr
    exact ⟨_, exists_run_of_length_ne hb _ fun h => Nat.ne_of_lt (hbound h)⟩

/-! ## What comes of runs -/

/-- What comes of a run, and the state it leaves. -/
def outcome (b : Build σ) (builds : Nat) : Option BuildError × Traversal σ → Except BuildError Graph × BuildState σ
  | (some e, t) => (.error e, ⟨t.disk, t.registry, builds⟩)
  | (none, t) => (.ok (b.graph (b.settleAttachments t)), ⟨t.disk, t.registry, builds⟩)

theorem seed_named (b : Build σ) (id : String) (root : Root) (disk : σ) (registry : Registry) :
    ({ b with id } : Build σ).seed root disk registry = b.seed root disk registry := rfl

theorem outcome_named (b : Build σ) (id : String) (builds : Nat) (result : Option BuildError × Traversal σ) :
    ({ b with id } : Build σ).outcome builds result =
      ((b.outcome builds result).1.map (Graph.named · id), (b.outcome builds result).2) := by
  rcases result with ⟨_ | e, t⟩ <;> rfl

section Named

variable (hb : b.compiler = none) (id : String)
include hb

theorem obtainSource_named (r : Resource) (t : Traversal σ) :
    ({ b with id } : Build σ).obtainSource r t = b.obtainSource r t := by
  rw [obtainSource_eq hb]
  exact obtainSource_eq (b := { b with id }) hb r t

theorem step_named (r : Resource) (t : Traversal σ) : ({ b with id } : Build σ).step r t = b.step r t := by
  unfold step visitImport
  simp only [obtainSource_named hb]
  rfl

/-- Without a compiler the name of a build has no part in its run. -/
theorem run_named (fuel : Nat) (t : Traversal σ) : ({ b with id } : Build σ).run fuel t = b.run fuel t := by
  induction fuel generalizing t with
  | zero => rfl
  | succ fuel ih => simp only [Build.run, step_named hb, ih]

end Named

end Build

namespace Builder

variable {b : Builder σ} {root : Root} {s : BuildState σ} {fuel : Nat}

/-! ## What builds come to -/

/-- A build comes to what its run comes to. -/
theorem build_eq_map_run (b : Builder σ) (fuel : Nat) (root : Root) (s : BuildState σ) : b.build fuel root s =
    ((b.buildOf root s.builds).run fuel ((b.buildOf root s.builds).seed root s.disk s.registry)).map
      ((b.buildOf root s.builds).outcome (s.builds + 1)) := by
  unfold build
  simp only
  rcases (b.buildOf root s.builds).run fuel ((b.buildOf root s.builds).seed root s.disk s.registry) with
    _ | ⟨_ | e, t⟩ <;> rfl

/-- Without a compiler, a build comes to what any build from the same directory would come to, under its own name. -/
theorem build_eq_map_named (hb : b.compiler = none) (other : Root) (number : Nat)
    (hdirectory : root.directory = other.directory) : b.build fuel root s =
      ((b.buildOf other number).run fuel ((b.buildOf other number).seed root s.disk s.registry)).map fun result =>
        (((b.buildOf other number).outcome (s.builds + 1) result).1.map (Graph.named · (root.buildId s.builds)),
          ((b.buildOf other number).outcome (s.builds + 1) result).2) := by
  have hnamed : b.buildOf root s.builds = { b.buildOf other number with id := root.buildId s.builds } := by
    unfold buildOf
    rw [hdirectory]
  rw [build_eq_map_run, hnamed, Build.seed_named, Build.run_named (b := b.buildOf other number) hb]
  exact congrFun (congrArg Option.map (funext fun result => Build.outcome_named _ _ _ result)) _

end Builder

/-! ## Roots that are imported -/

/-- A disk with texts at places. -/
def Disk.ofTexts (files : List (Place × String)) : Disk where
  entries := files.map fun file => (file.1, .file (Text.encode file.2) false)
  workingDirectory := []

/-- A builder on disks that has no compiler. -/
def Builder.onDisk : Builder Disk where
  files := Disk.fileSystem
  workingDirectory := ⟨"/"⟩
  config := {}
  compiler := none
  registers := false

/-- The paths of the resources of a graph, if a build came to one. -/
def Outcome.paths? (o : Outcome σ Graph) : Option (List Path) :=
  o.bind fun x => x.1.toOption.map fun g => g.resources.map Resource.path

theorem Outcome.exists_of_paths? {o : Outcome σ Graph} {ps : List Path} (h : o.paths? = some ps) :
    ∃ g t, o = some (.ok g, t) ∧ g.resources.map Resource.path = ps := by
  obtain ⟨⟨result, t⟩, rfl, h⟩ := Option.bind_eq_some_iff.mp h
  cases result with
  | ok g => exact ⟨g, t, rfl, Option.some.inj h⟩
  | error e => cases h

/-- What a build fails with, if it does. -/
def Outcome.error? (o : Outcome σ Graph) : Option BuildError :=
  o.bind fun x => match x.1 with
    | .error e => some e
    | .ok _ => none

theorem Outcome.exists_of_error? {o : Outcome σ Graph} {e : BuildError} (h : o.error? = some e) :
    ∃ t, o = some (.error e, t) := by
  obtain ⟨⟨result, t⟩, rfl, h⟩ := Option.bind_eq_some_iff.mp h
  cases result with
  | ok g => cases h
  | error e => exact ⟨t, by rw [Option.some.inj h]⟩

namespace RootAgain

/-- A module that imports the file of the root, which has an import of its own. -/
def disk : Disk := .ofTexts [(["root.js"], "import './b.js'"), (["a.js"], "import './root.js'"), (["b.js"], "")]

/-- Cells that are not those of their file. -/
def root : Root := { Root.script "import './a.js'" ⟨"/"⟩ with path := some ⟨"/root.js"⟩ }

end RootAgain

end CellGraph
