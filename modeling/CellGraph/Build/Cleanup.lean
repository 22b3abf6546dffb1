import CellGraph.FileSystem

/-!
# Cleaning up after builds

A registry holds, for each build, the files that were compiled on its behalf, until they are removed.
-/

namespace CellGraph

/-- The files to be removed for each build. -/
structure Registry where
  entries : List (String × List Path)
  deriving DecidableEq, Repr

namespace Registry

/-- A registry without files. -/
def empty : Registry := ⟨[]⟩

/-- The files registered for a build. -/
def registered (r : Registry) (build : String) : List Path := (r.entries.lookup build).getD []

/-- A registry without the files of a build. -/
def erase (r : Registry) (build : String) : Registry := ⟨r.entries.filter fun entry => entry.1 != build⟩

/-- Registers more files for a build. -/
def register (r : Registry) (build : String) (files : List Path) : Registry :=
  ⟨(build, r.registered build ++ files) :: (r.erase build).entries⟩

@[simp] theorem registered_register (r : Registry) (build : String) (files : List Path) :
    (r.register build files).registered build = r.registered build ++ files := by
  simp [register, registered]

@[simp] theorem registered_erase (r : Registry) (build : String) : (r.erase build).registered build = [] := by
  rw [registered, erase, lookup_filter_key (· != build), if_neg (by simp)]
  rfl

/-- The files of other builds stay registered. -/
theorem registered_erase_of_ne (r : Registry) {build other : String} (h : other ≠ build) :
    (r.erase build).registered other = r.registered other := by
  rw [registered, erase, lookup_filter_key (· != build), if_pos (bne_iff_ne.mpr h)]
  rfl

theorem registered_register_of_ne (r : Registry) {build other : String} (files : List Path) (h : other ≠ build) :
    (r.register build files).registered other = r.registered other := by
  rw [← r.registered_erase_of_ne h]
  simp [register, registered, List.lookup_cons, beq_eq_false_iff_ne.mpr h]

/-- Removes the files of a build: how many there were, the registry after, and the state of the files after. -/
def cleanup {σ : Type} (fs : FileSystem σ) (r : Registry) (build : String) (s : σ) : Nat × Registry × σ :=
  let (count, s) := fs.removeAll (r.registered build) s
  (count, r.erase build, s)

end Registry

end CellGraph
