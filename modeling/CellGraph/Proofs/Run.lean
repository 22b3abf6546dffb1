import CellGraph.Build.Builder
import CellGraph.Proofs.Discovery
import Mathlib.Data.List.Basic
import Mathlib.Data.Nat.Init

/-!
# Runs

A run is a sequence of visits. `Visits r t u` is one visit after which the run goes on, and `readsOf` lists what the
visits of a run read. What every visit keeps holds when a run ends well (`run_induction`). A `Trail` leads to all that a
run goes through, and also to where a visit fails the build (`exists_trail_of_run`). A run `Ends` if only files of a
list let more resources wait, since none of them is visited twice (`ends_of_visits`). What a run that ends well leaves
is completed by the attachments of modules (`exists_settleAttachments`), and that makes the graph of a build
(`Builder.exists_traversal`).
-/

namespace CellGraph.Build

variable {σ : Type} {b : Build σ}

/-- A visit of the resource that has waited longest, after which the run goes on. -/
def Visits (b : Build σ) (r : Resource) (t u : Traversal σ) : Prop :=
  ∃ pending, t.pending = r :: pending ∧ b.step r { t with pending } = (none, u)

/-- A module that was read: its text at that time, and the files that were compiled with it. -/
structure Read where
  resource : Resource
  text : String
  siblings : List Resource
  deriving DecidableEq, Repr

/-- What a visit reads. -/
def readOf (b : Build σ) (r : Resource) (t : Traversal σ) : List Read :=
  if r.path.isAmong t.visited || !r.isImport then []
  else
    match (b.obtainSource r (t.visit r.path)).1 with
    | .source text siblings => [⟨r, text, siblings⟩]
    | _ => []

/-- What a run reads, in turn. -/
def readsOf (b : Build σ) : Nat → Traversal σ → List Read
  | 0, _ => []
  | fuel + 1, t =>
    match t.pending with
    | [] => []
    | r :: pending => b.readOf r { t with pending } ++ b.readsOf fuel (b.step r { t with pending }).2

/-- What holds of nothing read and the start, and is kept by every visit, holds when a run ends well. -/
theorem run_induction {P : List Read → Traversal σ → Prop}
    (hvisit : ∀ {reads : List Read} {r : Resource} {pending : List Resource} {t u : Traversal σ}, P reads t →
      t.pending = r :: pending → b.step r { t with pending } = (none, u) →
      P (reads ++ b.readOf r { t with pending }) u)
    {fuel : Nat} {reads : List Read} {t u : Traversal σ} (ht : P reads t) (h : b.run fuel t = some (none, u)) :
    P (reads ++ b.readsOf fuel t) u ∧ u.pending = [] := by
  induction fuel generalizing reads t with
  | zero =>
    rw [run] at h
    split at h
    · cases h
      rw [readsOf, List.append_nil]
      exact ⟨ht, ‹_›⟩
    · cases h
  | succ fuel ih =>
    rw [run] at h
    rw [readsOf]
    cases hpending : t.pending with
    | nil =>
      rw [hpending] at h
      cases h
      rw [List.append_nil]
      exact ⟨ht, hpending⟩
    | cons r pending =>
      rw [hpending] at h
      cases hstep : b.step r { t with pending } with
      | mk error v =>
        simp only [hstep] at h ⊢
        cases error with
        | some e => cases h
        | none =>
          rw [← List.append_assoc]
          exact ih (hvisit ht hpending hstep) h

/-! ## Between visits -/

/-- Visiting resources in turn leads from one traversal to another. A run is at such a traversal whenever it looks for
the next resource that waits. -/
inductive Trail (b : Build σ) (t : Traversal σ) : List Resource → Traversal σ → Prop
  | start : Trail b t [] t
  | visit {rs : List Resource} {r : Resource} {u v : Traversal σ} (h : Trail b t rs u) (hvisit : b.Visits r u v) :
      Trail b t (rs ++ [r]) v

/-- A trail goes on behind another one. -/
theorem Trail.append {t u v : Traversal σ} {rs rs' : List Resource} (h : b.Trail t rs u) (h' : b.Trail u rs' v) :
    b.Trail t (rs ++ rs') v := by
  induction h' with
  | start => rwa [List.append_nil]
  | visit _ hvisit ih =>
    rw [← List.append_assoc]
    exact ih.visit hvisit

/-- A run goes on behind a trail as from its start. -/
theorem Trail.run_eq {t u : Traversal σ} {rs : List Resource} (h : b.Trail t rs u) (fuel : Nat) :
    b.run (rs.length + fuel) t = b.run fuel u := by
  induction h generalizing fuel with
  | start => rw [List.length_nil, Nat.zero_add]
  | @visit rs r u v _ hvisit ih =>
    obtain ⟨pending, hpending, hstep⟩ := hvisit
    have hrun : b.run (fuel + 1) u = b.run fuel v := by simp only [run, hpending, hstep]
    rw [List.length_append, List.length_singleton, Nat.add_assoc, Nat.add_comm 1, ih, hrun]

/-- Where a run ends: well when nothing waits, or at a visit that fails the build. -/
def EndsAt (b : Build σ) (t : Traversal σ) : Option BuildError × Traversal σ → Prop
  | (none, u) => u = t ∧ t.pending = []
  | (some e, u) => ∃ r pending, t.pending = r :: pending ∧ b.step r { t with pending } = (some e, u)

/-- A run that ends does so behind a trail of visits. -/
theorem exists_trail_of_run {t : Traversal σ} {result : Option BuildError × Traversal σ} {fuel : Nat}
    (h : b.run fuel t = some result) : ∃ rs u, b.Trail t rs u ∧ b.EndsAt u result := by
  have hrun : ∀ {fuel : Nat} {rs : List Resource} {u : Traversal σ}, b.Trail t rs u → b.run fuel u = some result →
      ∃ rs u, b.Trail t rs u ∧ b.EndsAt u result := by
    intro fuel
    induction fuel with
    | zero =>
      intro rs u htrail h
      rw [run] at h
      split at h
      · cases h
        exact ⟨rs, u, htrail, rfl, ‹_›⟩
      · cases h
    | succ fuel ih =>
      intro rs u htrail h
      rw [run] at h
      cases hpending : u.pending with
      | nil =>
        rw [hpending] at h
        cases h
        exact ⟨rs, u, htrail, rfl, hpending⟩
      | cons r pending =>
        rw [hpending] at h
        cases hstep : b.step r { u with pending } with
        | mk error v =>
          simp only [hstep] at h
          cases error with
          | some e =>
            cases h
            exact ⟨rs, u, htrail, r, pending, hpending, hstep⟩
          | none => exact ih (htrail.visit ⟨pending, hpending, hstep⟩) h
  exact hrun .start h

/-! ## Runs that end -/

/-- How many paths have not been visited yet. -/
def unvisited (files : List Path) (t : Traversal σ) : Nat := (files.filter fun p => !p.isAmong t.visited).length

theorem unvisited_le {files : List Path} {t u : Traversal σ}
    (h : ∀ p : Path, p.isAmong t.visited = true → p.isAmong u.visited = true) :
    unvisited files u ≤ unvisited files t := by
  refine List.Sublist.length_le (List.monotone_filter_right files fun p hp => ?_)
  cases hpath : p.isAmong t.visited with
  | false => rfl
  | true => simp [h p hpath] at hp

theorem unvisited_lt {files : List Path} {t u : Traversal σ} {p : Path}
    (h : ∀ p : Path, p.isAmong t.visited = true → p.isAmong u.visited = true)
    (hfile : p.isAmong files = true) (ht : p.isAmong t.visited = false) (hu : p.isAmong u.visited = true) :
    unvisited files u < unvisited files t := by
  obtain ⟨q, hq, hsame⟩ := isAmong_iff.mp hfile
  have hall : (files.filter fun p => !p.isAmong t.visited).filter (fun p => !p.isAmong u.visited)
      = files.filter fun p => !p.isAmong u.visited := by
    rw [List.filter_filter]
    refine List.filter_congr fun p _ => ?_
    cases hpath : p.isAmong t.visited with
    | false => simp
    | true => simp [h p hpath]
  unfold unvisited
  rw [← hall]
  refine List.length_filter_lt_length_iff_exists.mpr ⟨q, List.mem_filter.mpr ⟨hq, ?_⟩, ?_⟩
  · rw [← isAmong_congr hsame, ht]
    rfl
  · rw [← isAmong_congr hsame, hu]
    simp

/-- Whether a run comes to an end. -/
def Ends (b : Build σ) (t : Traversal σ) : Prop := ∃ fuel result, b.run fuel t = some result

/-- A run ends if it does so behind its first visit. -/
theorem Ends.of_step {t : Traversal σ} {r : Resource} {pending : List Resource} (ht : t.pending = r :: pending)
    (h : ∀ u, b.step r { t with pending } = (none, u) → b.Ends u) : b.Ends t := by
  cases hstep : b.step r { t with pending } with
  | mk error u =>
    cases error with
    | some e => exact ⟨1, (some e, u), by simp only [run, ht, hstep]⟩
    | none =>
      obtain ⟨fuel, result, hrun⟩ := h u hstep
      exact ⟨fuel + 1, result, by simp only [run, ht, hstep, hrun]⟩

/-- A run ends if each visit makes what waits shorter, visits one of finitely many files for the first time, or leads to
where the run ends. -/
theorem ends_of_visits {P : Traversal σ → Prop} (files : List Path)
    (hvisit : ∀ {r : Resource} {t u : Traversal σ}, P t → b.Visits r t u → b.Ends u ∨
      P u ∧ (∀ p : Path, p.isAmong t.visited = true → p.isAmong u.visited = true) ∧
        (u.pending = t.pending.tail ∨
          r.path.isAmong files = true ∧ r.path.isAmong t.visited = false ∧ r.path.isAmong u.visited = true))
    {t : Traversal σ} (h : P t) : b.Ends t := by
  -- first by the files that are left to visit, and for as many of them by what waits
  induction hfiles : unvisited files t using Nat.strong_induction_on generalizing t with
  | _ n ih =>
    induction hlength : t.pending.length generalizing t with
    | zero =>
      have hpending : t.pending = [] := List.length_eq_zero_iff.mp hlength
      exact ⟨0, (none, t), by rw [run, if_pos hpending]⟩
    | succ m ihm =>
      obtain ⟨r, pending, ht⟩ : ∃ r pending, t.pending = r :: pending := List.exists_cons_of_length_eq_add_one hlength
      refine .of_step ht fun u hstep => ?_
      rcases hvisit h ⟨pending, ht, hstep⟩ with hends | ⟨hu, hmono, hshorter | ⟨hfile, hbefore, hafter⟩⟩
      · exact hends
      · have hle : unvisited files u ≤ unvisited files t := unvisited_le hmono
        rcases Nat.lt_or_eq_of_le hle with hlt | heq
        · exact ih _ (hfiles ▸ hlt) hu rfl
        · refine ihm hu (heq.trans hfiles) ?_
          rw [hshorter, List.length_tail, hlength]
          rfl
      · exact ih _ (hfiles ▸ unvisited_lt hmono hfile hbefore hafter) hu rfl

/-! ## Attachments of modules -/

theorem exists_foldl_settleAttachmentsOf (b : Build σ) (ms : List (Path × List String)) (t : Traversal σ) :
    ∃ rs : List Resource, (∀ r ∈ rs, r.isImport = false) ∧ ms.foldl b.settleAttachmentsOf t = { t with
      visited := t.visited ++ rs.map Resource.path
      accepted := t.accepted ++ rs.filter fun r => b.files.isFile r.path t.disk
      diagnostics := t.diagnostics ++ (rs.filter fun r => !b.files.isFile r.path t.disk).map fun r =>
        .unresolved r "attachment not found" } := by
  induction ms generalizing t with
  | nil => exact ⟨[], by simp, by simp⟩
  | cons m ms ih =>
    rw [List.foldl_cons, settleAttachmentsOf]
    split
    · rw [foldl_settleAttachment]
      obtain ⟨rs, hrs, hms⟩ := ih _
      refine ⟨firstSeen t.knownPaths (m.2.filterMap (attachedResource? b.roots m.1.directory (some m.1))) ++ rs, ?_,
        hms.trans (by simp only [List.map_append, List.filter_append, List.append_assoc])⟩
      intro r hr
      rcases List.mem_append.mp hr with hr | hr
      · obtain ⟨name, -, hname⟩ := List.mem_filterMap.mp (mem_of_mem_firstSeen hr)
        exact isImport_of_attachedResource? hname
      · exact hrs r hr
    · exact ih t

/-- The attachments of modules leave all of a traversal but what they add themselves. -/
theorem exists_settleAttachments (b : Build σ) (t : Traversal σ) : ∃ rs : List Resource,
    (∀ r ∈ rs, r.isImport = false) ∧ b.settleAttachments t = { t with
      visited := t.visited ++ rs.map Resource.path
      accepted := t.accepted ++ rs.filter fun r => b.files.isFile r.path t.disk
      diagnostics := t.diagnostics ++ (rs.filter fun r => !b.files.isFile r.path t.disk).map fun r =>
        .unresolved r "attachment not found" } :=
  b.exists_foldl_settleAttachmentsOf t.attachedBy t

end CellGraph.Build

namespace CellGraph.Builder

variable {σ : Type} {b : Builder σ} {root : Root} {s : BuildState σ}

/-! ## Builds that come to a graph -/

/-- What a build reads. -/
def reads (b : Builder σ) (fuel : Nat) (root : Root) (s : BuildState σ) : List Build.Read :=
  (b.buildOf root s.builds).readsOf fuel ((b.buildOf root s.builds).seed root s.disk s.registry)

/-- What is left of the traversal of a build that comes to a graph. -/
def traversal? (b : Builder σ) (fuel : Nat) (root : Root) (s : BuildState σ) : Option (Traversal σ) :=
  match (b.buildOf root s.builds).run fuel ((b.buildOf root s.builds).seed root s.disk s.registry) with
  | some (none, t) => some ((b.buildOf root s.builds).settleAttachments t)
  | _ => none

/-- A build that comes to a graph does so by a run, and leaves what its traversal leaves. -/
theorem exists_traversal {fuel : Nat} {g : Graph} {s' : BuildState σ} (h : b.build fuel root s = some (.ok g, s')) :
    ∃ t u, (b.buildOf root s.builds).run fuel ((b.buildOf root s.builds).seed root s.disk s.registry) = some (none, u) ∧
      t = (b.buildOf root s.builds).settleAttachments u ∧ b.traversal? fuel root s = some t ∧
      g = (b.buildOf root s.builds).graph t ∧ s' = ⟨t.disk, t.registry, s.builds + 1⟩ := by
  unfold build at h
  simp only at h
  split at h
  · cases h
  · cases h
  · rename_i u hrun
    obtain ⟨rfl, rfl⟩ : (b.buildOf root s.builds).graph ((b.buildOf root s.builds).settleAttachments u) = g ∧
        ⟨u.disk, u.registry, s.builds + 1⟩ = s' := by
      simpa using h
    obtain ⟨rs, -, hsettle⟩ := (b.buildOf root s.builds).exists_settleAttachments u
    refine ⟨_, u, hrun, rfl, ?_, rfl, ?_⟩
    · unfold traversal?
      rw [hrun]
    · rw [hsettle]

end CellGraph.Builder
