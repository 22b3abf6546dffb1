import CellGraph.Proofs.Closure

/-!
# What a build finds

All that a build takes from the files is a list of findings, one for each resource that it looks up. A traversal apart
from the files is its `course`, and a visit takes the course on by its finding alone (`Build.step_eq_follow`). So runs
that find the same end in the same way (`Build.run_alike`), and builds that find the same come to the same resources and
diagnostics, on whatever disks and with whatever compiler (`Builder.build_eq_of_findings`).
-/

namespace CellGraph

variable {σ : Type}

/-- What a visit finds where its resource is. -/
inductive Finding
  | attachment (isThere : Bool)
  /-- A module, with the compiled files that were not known. -/
  | module (text : String) (siblings : List Resource)
  | missing (reason : SystemError)
  | failed (error : BuildError)
  deriving DecidableEq, Repr

/-- A traversal apart from the files and from what has been compiled. -/
def Traversal.course (t : Traversal σ) : Traversal Unit where
  disk := ()
  registry := .empty
  pending := t.pending
  visited := t.visited
  accepted := t.accepted
  attachedBy := t.attachedBy
  diagnostics := t.diagnostics
  compiledFiles := []

namespace Traversal

variable {t t' : Traversal σ} (h : t'.course = t.course)
include h

theorem pending_eq_of_course : t'.pending = t.pending := congrArg (fun c : Traversal Unit => c.pending) h

theorem visited_eq_of_course : t'.visited = t.visited := congrArg (fun c : Traversal Unit => c.visited) h

theorem knownPaths_eq_of_course : t'.knownPaths = t.knownPaths := congrArg (fun c : Traversal Unit => c.knownPaths) h

theorem course_with_pending (pending : List Resource) :
    ({ t' with pending } : Traversal σ).course = ({ t with pending } : Traversal σ).course :=
  congrArg (fun c : Traversal Unit => { c with pending }) h

end Traversal

namespace Build

variable {b : Build σ} {id : String} {r : Resource} {t t' : Traversal σ} {fuel : Nat}

/-! ## Visits -/

/-- What a visit finds. -/
def finding (b : Build σ) (r : Resource) (t : Traversal σ) : Finding :=
  if r.isImport then
    match (b.obtainSource r (t.visit r.path)).1 with
    | .source text siblings => .module text (firstSeen (t.knownPaths ++ [r.path]) siblings)
    | .missing reason => .missing reason
    | .failed e => .failed e
  else .attachment (b.files.isFile r.path t.disk)

/-- How a traversal goes on from a visit that has found something. -/
def follow (b : Build σ) (r : Resource) (t : Traversal Unit) : Finding → Option BuildError × Traversal Unit
  | .attachment true => (none, (t.visit r.path).accept r)
  | .attachment false => (none, (t.visit r.path).noteMissing r "attachment not found")
  | .missing reason => (none, (t.visit r.path).noteMissing r reason.message)
  | .failed e => (some e, t.visit r.path)
  | .module text siblings =>
    if b.config.dialect? r.path = none then (some (.unknownDialect r.path), t.visit r.path)
    else (none, { t with
      pending := t.pending ++
        firstSeen (t.knownPaths ++ [r.path] ++ siblings.map Resource.path) (b.importedBy r.path text)
      visited := t.visited ++ r.path :: siblings.map Resource.path
      accepted := t.accepted ++ r :: siblings
      attachedBy := t.attachedBy ++ b.noteOf r.path text
      diagnostics := t.diagnostics ++ (b.readFile r.path text).2 })

/-- A visit takes the course of a traversal on by what it finds. -/
theorem step_eq_follow (hpath : r.path.isAmong t.visited = false) :
    ((b.step r t).1, (b.step r t).2.course) = b.follow r t.course (b.finding r t) := by
  cases himport : r.isImport with
  | false =>
    have hfinding : b.finding r t = .attachment (b.files.isFile r.path (t.visit r.path).disk) := by
      rw [finding, himport, if_neg Bool.false_ne_true]
      rfl
    rw [step_of_attachment hpath himport, hfinding, visitAttachment]
    cases b.files.isFile r.path (t.visit r.path).disk <;> rfl
  | true =>
    obtain ⟨disk, registry, compiledFiles, hframe⟩ := b.exists_obtainSource r (t.visit r.path)
    rw [step_of_import hpath himport, visitImport, finding, if_pos himport]
    cases hread : b.obtainSource r (t.visit r.path) with
    | mk reading u =>
      rw [hread] at hframe
      simp only at hframe
      subst hframe
      cases reading with
      | missing reason => rfl
      | failed e => rfl
      | source text siblings =>
        cases hdialect : b.config.dialect? r.path with
        | none =>
          simp only [hdialect, follow, if_true]
          rfl
        | some dialect =>
          -- the imports are new beside all compiled files just if they are beside the new ones
          have hknown :=
            firstSeen_congr (isAmong_firstSeen · (t.knownPaths ++ [r.path]) siblings) (b.importedBy r.path text)
          have hexpand := b.expand_foldl_adopt hdialect text siblings { t with disk, registry, compiledFiles }
          change b.expand _ _ _ _ = { t with
            disk, registry, compiledFiles
            pending := t.pending ++
              firstSeen (t.knownPaths ++ [r.path] ++ siblings.map Resource.path) (b.importedBy r.path text)
            visited := _, accepted := _, attachedBy := _, diagnostics := _ } at hexpand
          rw [← hknown] at hexpand
          simp only [hdialect, follow, reduceCtorEq, if_false]
          exact congrArg (fun u : Traversal σ => (none, u.course)) hexpand

/-! ## Two runs -/

/-- Visits that find the same take the same course on. -/
theorem step_alike (hcourse : t'.course = t.course)
    (hfinding : Build.finding { b with id } r t' = b.finding r t) :
    (Build.step { b with id } r t').1 = (b.step r t).1 ∧
      (Build.step { b with id } r t').2.course = (b.step r t).2.course := by
  have hvisited := Traversal.visited_eq_of_course hcourse
  cases hpath : r.path.isAmong t.visited with
  | true =>
    rw [step_of_visited hpath, step_of_visited (hvisited ▸ hpath)]
    exact ⟨rfl, hcourse⟩
  | false =>
    have hfollow := step_eq_follow (b := b) hpath
    have hfollow' := step_eq_follow (b := { b with id }) (hvisited ▸ hpath)
    rw [hcourse, hfinding] at hfollow'
    exact Prod.mk.inj (hfollow'.trans hfollow.symm)

/-- What the visits of a run find, in turn. -/
def visitFindings (b : Build σ) : Nat → Traversal σ → List Finding
  | 0, _ => []
  | fuel + 1, t =>
    match t.pending with
    | [] => []
    | r :: pending =>
      b.finding r { t with pending } ::
        match b.step r { t with pending } with
        | (some _, _) => []
        | (none, u) => b.visitFindings fuel u

/-- Whether two runs end in the same way, apart from the files and from what has been compiled. -/
inductive SameEnd : (result result' : Option (Option BuildError × Traversal σ)) → Prop
  | unfinished : SameEnd none none
  | ended (error : Option BuildError) {t t' : Traversal σ} (hcourse : t'.course = t.course) :
      SameEnd (some (error, t)) (some (error, t'))

/-- Runs that find the same end in the same way. -/
theorem run_alike {rest rest' : List Finding} (hcourse : t'.course = t.course)
    (hfindings : Build.visitFindings { b with id } fuel t' ++ rest' = b.visitFindings fuel t ++ rest) :
    SameEnd (b.run fuel t) (Build.run { b with id } fuel t') ∧ rest' = rest := by
  induction fuel generalizing t t' with
  | zero =>
    rw [run, run, Traversal.pending_eq_of_course hcourse]
    refine ⟨?_, hfindings⟩
    split
    · exact .ended none hcourse
    · exact .unfinished
  | succ fuel ih =>
    rw [run, run, Traversal.pending_eq_of_course hcourse]
    rw [visitFindings, visitFindings, Traversal.pending_eq_of_course hcourse] at hfindings
    cases ht : t.pending with
    | nil =>
      simp only [ht] at hfindings ⊢
      exact ⟨.ended none hcourse, hfindings⟩
    | cons r pending =>
      simp only [ht, List.cons_append, List.cons.injEq] at hfindings ⊢
      obtain ⟨hfinding, hfindings⟩ := hfindings
      obtain ⟨herror, hstep⟩ := step_alike (Traversal.course_with_pending hcourse pending) hfinding
      cases hb : b.step r { t with pending } with
      | mk error u =>
        cases hb' : Build.step { b with id } r { t' with pending } with
        | mk error' u' =>
          rw [hb, hb'] at herror hstep
          simp only at herror hstep
          subst herror
          simp only [hb, hb'] at hfindings
          cases error' with
          | some e => exact ⟨.ended (some e) hstep, hfindings⟩
          | none => exact ih hstep hfindings

/-! ## Attachments of modules -/

/-- What script modules attach and is not known yet. -/
def unsettled {τ : Type} (b : Build σ) (t : Traversal τ) : List Resource :=
  firstSeen t.knownPaths (t.attachedBy.flatMap b.attachedResources)

theorem unsettled_eq_of_course (h : t'.course = t.course) : Build.unsettled { b with id } t' = b.unsettled t :=
  congrArg (fun c : Traversal Unit => b.unsettled c) h

/-- How a traversal ends with the attachments of modules, as their files are there or not. -/
def settle (b : Build σ) (t : Traversal Unit) (isThere : Resource → Bool) : Traversal Unit := { t with
  visited := t.visited ++ (b.unsettled t).map Resource.path
  accepted := t.accepted ++ (b.unsettled t).filter isThere
  diagnostics := t.diagnostics ++ ((b.unsettled t).filter fun r => !isThere r).map fun r =>
    .unresolved r "attachment not found" }

theorem course_settleAttachments
    (h : ∀ m ∈ t.attachedBy, ∃ r ∈ t.accepted, m.1.same r.path = true ∧ r.isImport = true) :
    (b.settleAttachments t).course = b.settle t.course fun r => b.files.isFile r.path t.disk := by
  rw [settleAttachments_eq h]
  rfl

theorem settle_congr {c : Traversal Unit} {isThere isThere' : Resource → Bool}
    (h : ∀ r ∈ b.unsettled c, isThere' r = isThere r) : b.settle c isThere' = b.settle c isThere := by
  unfold settle
  rw [List.filter_congr h, List.filter_congr fun r hr => congrArg (!·) (h r hr)]

/-- What is found when a run has ended. -/
def settledFindings (b : Build σ) : Option (Option BuildError × Traversal σ) → List Finding
  | some (none, t) => (b.unsettled t).map fun r => .attachment (b.files.isFile r.path t.disk)
  | _ => []

/-- Attachments of modules that are found alike take the same course to its end. -/
theorem settle_alike (hcourse : t'.course = t.course)
    (hmodules : ∀ m ∈ t.attachedBy, ∃ r ∈ t.accepted, m.1.same r.path = true ∧ r.isImport = true)
    (hmodules' : ∀ m ∈ t'.attachedBy, ∃ r ∈ t'.accepted, m.1.same r.path = true ∧ r.isImport = true)
    (hfindings : Build.settledFindings { b with id } (some (none, t')) = b.settledFindings (some (none, t))) :
    (Build.settleAttachments { b with id } t').course = (b.settleAttachments t).course := by
  rw [settledFindings, settledFindings, unsettled_eq_of_course hcourse, List.map_inj_left] at hfindings
  rw [course_settleAttachments hmodules, course_settleAttachments hmodules', hcourse]
  exact settle_congr fun r hr => Finding.attachment.inj (hfindings r hr)

/-- What a run finds in turn, and in the end at the attachments of modules. -/
def findingsOf (b : Build σ) (fuel : Nat) (t : Traversal σ) : List Finding :=
  b.visitFindings fuel t ++ b.settledFindings (b.run fuel t)

/-- The course that a root starts depends on no files. -/
theorem course_seed (b : Build σ) (id : String) (root : Root) (disk disk' : σ) (registry registry' : Registry) :
    (Build.seed { b with id } root disk' registry').course = (b.seed root disk registry).course := by
  rw [seed_eq, seed_eq]
  rfl

end Build

/-- A graph apart from its name and from what has been compiled. -/
def Graph.bare (g : Graph) : Graph := { g with buildId := "", compiledFiles := [] }

/-- What came of a build, apart from the files, from its name and from what has been compiled. -/
def Outcome.bare (o : Outcome σ Graph) : Option (Except BuildError Graph) := o.map fun x => x.1.map Graph.bare

theorem Build.bare_graph (b : Build σ) (id : String) {t t' : Traversal σ} (hcourse : t'.course = t.course) :
    (Build.graph { b with id } t').bare = (b.graph t).bare := by
  let graphOf (c : Traversal Unit) : Graph := ⟨"", b.roots.directory,
    c.accepted.filter fun r => !(r.isImport && b.config.isDocument r.path), c.diagnostics, []⟩
  exact congrArg graphOf hcourse

/-! ## Two builds -/

/-- What two runs of a root that find the same come to is the same. -/
theorem Build.outcome_alike (b : Build σ) (id : String) {root : Root} {disk disk' : σ} {registry registry' : Registry}
    {fuel builds builds' : Nat}
    (h : Build.findingsOf { b with id } fuel (Build.seed { b with id } root disk' registry') =
      b.findingsOf fuel (b.seed root disk registry)) :
    Outcome.bare ((Build.run { b with id } fuel (Build.seed { b with id } root disk' registry')).map
      (Build.outcome { b with id } builds')) =
      Outcome.bare ((b.run fuel (b.seed root disk registry)).map (b.outcome builds)) := by
  obtain ⟨hrun, hsettled⟩ := run_alike (b.course_seed id root disk disk' registry registry') h
  generalize hresult : b.run fuel (b.seed root disk registry) = result at hrun hsettled
  generalize hresult' : Build.run { b with id } fuel (Build.seed { b with id } root disk' registry') = result'
    at hrun hsettled
  cases hrun with
  | unfinished => rfl
  | ended error hcourse =>
    cases error with
    | some e => rfl
    | none =>
      have hmodules := (accounted_of_run hresult).1.exists_accepted_of_noted
      have hmodules' := (accounted_of_run hresult').1.exists_accepted_of_noted
      have hgraph := b.bare_graph id (settle_alike hcourse hmodules hmodules' hsettled)
      exact congrArg (some ∘ Except.ok) hgraph

namespace Builder

variable {b : Builder σ} {root : Root} {s s' : BuildState σ} {fuel : Nat}

/-- What a build finds at the resources that it visits, and in the end at the attachments of modules. -/
def findings (b : Builder σ) (fuel : Nat) (root : Root) (s : BuildState σ) : List Finding :=
  (b.buildOf root s.builds).findingsOf fuel ((b.buildOf root s.builds).seed root s.disk s.registry)

/-- Builds that find the same come to the same. -/
theorem build_eq_of_findings (h : b.findings fuel root s' = b.findings fuel root s) :
    Outcome.bare (b.build fuel root s') = Outcome.bare (b.build fuel root s) := by
  rw [build_eq_map_run, build_eq_map_run]
  exact (b.buildOf root s.builds).outcome_alike (root.buildId s'.builds) h

end Builder

end CellGraph
