import CellGraph.Build.Traversal

/-!
# First references

Of the references that lead to one file the first one counts. `firstSeen seen rs` keeps it, and nothing that leads to a
path of `seen`. It works through a list from left to right (`firstSeen_append`), so a longer list only adds to what is
kept (`firstSeen_isPrefix`). A traversal that lets resources wait in turn, looks up attachments in turn or adopts
resources in turn does so with those that `firstSeen` keeps, given the paths that it knows (`foldl_enqueue`,
`foldl_settleAttachment`, `foldl_adopt`).
-/

namespace CellGraph

/-! ## Paths among others -/

section Paths

variable {p q : Path} {ps qs : List Path} {rs : List Resource}

@[simp] theorem isAmong_nil : p.isAmong [] = false := rfl

@[simp] theorem isAmong_append : p.isAmong (ps ++ qs) = (p.isAmong ps || p.isAmong qs) := List.any_append

@[simp] theorem isAmong_cons : p.isAmong (q :: ps) = (p.same q || p.isAmong ps) := rfl

theorem isAmong_iff : p.isAmong ps = true ↔ ∃ q ∈ ps, p.same q = true := List.any_eq_true

theorem isAmong_of_mem (h : p ∈ ps) : p.isAmong ps = true := isAmong_iff.mpr ⟨p, h, p.same_refl⟩

/-- The same path is among the same paths. -/
theorem isAmong_congr (h : p.same q = true) : p.isAmong ps = q.isAmong ps := by
  have hsame : p.components = q.components := Path.same_iff.mp h
  unfold Path.isAmong Path.same
  rw [hsame]

theorem isPathOf_eq_isAmong : p.isPathOf rs = p.isAmong (rs.map Resource.path) := by
  simp [Path.isPathOf, Path.isAmong, Function.comp_def]

theorem isPathOf_iff : p.isPathOf rs = true ↔ ∃ r ∈ rs, p.same r.path = true := List.any_eq_true

end Paths

/-! ## The first reference to each path -/

/-- The first reference to each path, apart from the paths that have been seen. -/
def firstSeen (seen : List Path) : List Resource → List Resource
  | [] => []
  | r :: rs => if r.path.isAmong seen then firstSeen seen rs else r :: firstSeen (seen ++ [r.path]) rs

section FirstSeen

variable {seen seen' : List Path} {xs ys : List Resource}

theorem firstSeen_cons (seen : List Path) (r : Resource) (rs : List Resource) : firstSeen seen (r :: rs) =
    if r.path.isAmong seen then firstSeen seen rs else r :: firstSeen (seen ++ [r.path]) rs := rfl

/-- It only matters which paths have been seen, not in which order. -/
theorem firstSeen_congr (h : ∀ p : Path, p.isAmong seen = p.isAmong seen') (rs : List Resource) :
    firstSeen seen rs = firstSeen seen' rs := by
  induction rs generalizing seen seen' with
  | nil => rfl
  | cons r rs ih =>
    have hr : ∀ p : Path, p.isAmong (seen ++ [r.path]) = p.isAmong (seen' ++ [r.path]) := by
      intro p
      simp [h]
    simp only [firstSeen, h, ih h, ih hr]

/-- What is kept leads to the same paths. -/
theorem isAmong_firstSeen (p : Path) (seen : List Path) (rs : List Resource) :
    p.isAmong (seen ++ (firstSeen seen rs).map Resource.path) = p.isAmong (seen ++ rs.map Resource.path) := by
  induction rs generalizing seen with
  | nil => rfl
  | cons r rs ih =>
    unfold firstSeen
    split
    · rename_i hr
      rw [ih, List.map_cons]
      simp only [isAmong_append, isAmong_cons]
      cases hp : p.same r.path with
      | false => simp
      | true => rw [isAmong_congr hp, hr]; simp
    · have := ih (seen ++ [r.path])
      simpa using this

theorem firstSeen_append (seen : List Path) (xs ys : List Resource) :
    firstSeen seen (xs ++ ys) = firstSeen seen xs ++ firstSeen (seen ++ xs.map Resource.path) ys := by
  induction xs generalizing seen with
  | nil => simp [firstSeen]
  | cons x xs ih =>
    simp only [List.cons_append, firstSeen]
    split
    · rename_i hx
      rw [ih]
      congr 1
      refine firstSeen_congr (fun p => ?_) ys
      rw [List.map_cons]
      simp only [isAmong_append, isAmong_cons]
      cases hp : p.same x.path with
      | false => simp
      | true => rw [isAmong_congr hp, hx]; simp
    · rw [ih, List.cons_append, List.map_cons]
      simp

theorem firstSeen_isPrefix (h : xs <+: ys) : firstSeen seen xs <+: firstSeen seen ys := by
  obtain ⟨rest, rfl⟩ := h
  rw [firstSeen_append]
  exact List.prefix_append _ _

/-- What more references lead to only comes behind what fewer lead to. -/
theorem flatMap_firstSeen_isPrefix (h : xs <+: ys) (f : Resource → List Resource) :
    (firstSeen seen xs).flatMap f <+: (firstSeen seen ys).flatMap f := by
  obtain ⟨rest, hrest⟩ : firstSeen seen xs <+: firstSeen seen ys := firstSeen_isPrefix h
  rw [← hrest, List.flatMap_append]
  exact List.prefix_append _ _

theorem firstSeen_sublist (seen : List Path) (rs : List Resource) : (firstSeen seen rs).Sublist rs := by
  induction rs generalizing seen with
  | nil => exact List.Sublist.slnil
  | cons r rs ih =>
    unfold firstSeen
    split
    · exact (ih seen).cons r
    · exact (ih _).cons_cons r

theorem mem_of_mem_firstSeen {r : Resource} (h : r ∈ firstSeen seen xs) : r ∈ xs := (firstSeen_sublist seen xs).subset h

/-- What is kept leads to no path that has been seen or that something before it leads to. -/
theorem isAmong_of_firstSeen_eq {r : Resource} {before after rs : List Resource}
    (h : firstSeen seen rs = before ++ r :: after) :
    r.path.isAmong (seen ++ before.map Resource.path) = false := by
  induction rs generalizing seen before with
  | nil => simp [firstSeen] at h
  | cons x rs ih =>
    unfold firstSeen at h
    split at h
    · exact ih h
    · rename_i hx
      cases before with
      | nil =>
        obtain ⟨rfl, -⟩ := List.cons.inj h
        simpa using hx
      | cons b before =>
        obtain ⟨rfl, htail⟩ := List.cons.inj h
        simpa using ih htail

/-- A reference to a path that had not been seen leaves one to that path. -/
theorem exists_mem_firstSeen {r : Resource} (hr : r ∈ xs) (hseen : r.path.isAmong seen = false) :
    ∃ first ∈ firstSeen seen xs, r.path.same first.path = true := by
  have hpath : r.path.isAmong (seen ++ (firstSeen seen xs).map Resource.path) = true := by
    rw [isAmong_firstSeen, isAmong_append, hseen, isAmong_of_mem (List.mem_map_of_mem hr)]
    rfl
  rw [isAmong_append, hseen, Bool.false_or, ← isPathOf_eq_isAmong] at hpath
  exact isPathOf_iff.mp hpath

end FirstSeen

/-! ## What a traversal knows -/

namespace Traversal

variable {σ : Type} (t : Traversal σ)

/-- The paths that have been visited, wait to be, or are those of resources. -/
def knownPaths : List Path := t.visited ++ (t.pending ++ t.accepted).map Resource.path

theorem knows_eq_isAmong (p : Path) : t.knows p = p.isAmong t.knownPaths := by
  simp [knows, knownPaths, isPathOf_eq_isAmong, Bool.or_assoc]

/-- Resources wait in turn if they are the first to their paths. -/
theorem foldl_enqueue (rs : List Resource) :
    rs.foldl enqueue t = { t with pending := t.pending ++ firstSeen t.knownPaths rs } := by
  induction rs generalizing t with
  | nil => simp [firstSeen]
  | cons r rs ih =>
    rw [List.foldl_cons, ih, firstSeen_cons, enqueue, knows_eq_isAmong]
    split
    · rfl
    · have hknown : ∀ p : Path, p.isAmong (knownPaths { t with pending := t.pending ++ [r] })
          = p.isAmong (t.knownPaths ++ [r.path]) := by
        intro p
        simp [knownPaths, Bool.or_comm, Bool.or_left_comm]
      simp [firstSeen_congr hknown]

/-- What is known when a resource has been visited and kept. -/
theorem isAmong_knownPaths_accept (r : Resource) (p : Path) :
    p.isAmong ((t.visit r.path).accept r).knownPaths = p.isAmong (t.knownPaths ++ [r.path]) := by
  simp [knownPaths, visit, accept, Bool.or_comm, Bool.or_left_comm]

/-- What is known when a resource that waited has been visited. -/
theorem isAmong_knownPaths_of_pending {r : Resource} {pending : List Resource} (h : t.pending = r :: pending)
    (p : Path) : p.isAmong (knownPaths { t with pending } ++ [r.path]) = p.isAmong t.knownPaths := by
  simp [knownPaths, h, Bool.or_comm, Bool.or_left_comm]

/-- Resources are adopted in turn if they are the first to their paths. -/
theorem foldl_adopt (rs : List Resource) :
    rs.foldl adopt t = { t with
      visited := t.visited ++ (firstSeen t.knownPaths rs).map Resource.path
      accepted := t.accepted ++ firstSeen t.knownPaths rs } := by
  induction rs generalizing t with
  | nil => simp [firstSeen]
  | cons r rs ih =>
    rw [List.foldl_cons, ih, firstSeen_cons, adopt, knows_eq_isAmong]
    split
    · rfl
    · rw [firstSeen_congr (t.isAmong_knownPaths_accept r)]
      simp [visit, accept]

/-- What has been adopted is known. -/
theorem isAmong_knownPaths_foldl_adopt (rs : List Resource) (p : Path) :
    p.isAmong (rs.foldl adopt t).knownPaths = p.isAmong (t.knownPaths ++ rs.map Resource.path) := by
  rw [← isAmong_firstSeen, foldl_adopt]
  simp [knownPaths, Bool.or_left_comm]

end Traversal

namespace Build

variable {σ : Type} (b : Build σ) (t : Traversal σ)

/-- An attachment is kept or noted, as its file is there or not. -/
theorem visitAttachment_eq (r : Resource) : b.visitAttachment r t = { t with
    accepted := t.accepted ++ [r].filter fun r => b.files.isFile r.path t.disk
    diagnostics := t.diagnostics ++ ([r].filter fun r => !b.files.isFile r.path t.disk).map fun r =>
      .unresolved r "attachment not found" } := by
  unfold visitAttachment
  split
  · rename_i hfile
    simp [hfile, Traversal.accept]
  · rename_i hfile
    simp [hfile, Traversal.noteMissing]

/-- An attachment that has been looked up is known, and nothing else is that was not. -/
theorem isAmong_knownPaths_visitAttachment (r : Resource) (p : Path) :
    p.isAmong (b.visitAttachment r (t.visit r.path)).knownPaths = p.isAmong (t.knownPaths ++ [r.path]) := by
  rw [visitAttachment_eq]
  cases hfile : b.files.isFile r.path t.disk <;>
    simp [Traversal.knownPaths, Traversal.visit, hfile, Bool.or_comm, Bool.or_left_comm]

/-- Attachments are looked up in turn if they are the first to their paths. -/
theorem foldl_settleAttachment (rs : List Resource) : rs.foldl b.settleAttachment t = { t with
    visited := t.visited ++ (firstSeen t.knownPaths rs).map Resource.path
    accepted := t.accepted ++ (firstSeen t.knownPaths rs).filter fun r => b.files.isFile r.path t.disk
    diagnostics := t.diagnostics ++ ((firstSeen t.knownPaths rs).filter fun r =>
      !b.files.isFile r.path t.disk).map fun r => .unresolved r "attachment not found" } := by
  induction rs generalizing t with
  | nil => simp [firstSeen]
  | cons r rs ih =>
    rw [List.foldl_cons, ih, firstSeen_cons, settleAttachment, Traversal.knows_eq_isAmong]
    split
    · rfl
    · rw [firstSeen_congr (b.isAmong_knownPaths_visitAttachment t r), visitAttachment_eq]
      rw [show r :: firstSeen (t.knownPaths ++ [r.path]) rs = [r] ++ _ from rfl]
      simp only [Traversal.visit, List.map_append, List.filter_append, List.append_assoc, List.map_singleton]

end Build

end CellGraph
