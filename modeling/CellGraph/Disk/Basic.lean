import CellGraph.FileSystem

/-!
# Disks

A disk is a tree of files, directories and links, held as a list of places and what is there. `Disk.locate` follows a
path as a file system does: step by step from the working directory or the root, through links, but only through
directories. `Disk.read`, `Disk.isFile` and `Disk.filesBelow` look at what is there.
-/

namespace CellGraph

/-- A place on a disk: the names that lead to it from the root. -/
abbrev Place := List String

/-- What is at a place of a disk. -/
inductive Entry
  | file (content : Text.Bytes) (executable : Bool)
  | directory
  | link (target : String)
  deriving DecidableEq, Repr

/-- A disk with a working directory. -/
structure Disk where
  entries : List (Place × Entry)
  workingDirectory : Place
  deriving DecidableEq, Repr

namespace Disk

/-- What is at a place. The root is always a directory. -/
def get? (d : Disk) (place : Place) : Option Entry := if place = [] then some .directory else d.entries.lookup place

/-- The disk with another entry at a place. -/
def put (d : Disk) (place : Place) (entry : Entry) : Disk :=
  { d with entries := (place, entry) :: d.entries.filter fun e => e.1 != place }

theorem get?_put (d : Disk) {place : Place} (entry : Entry) (h : place ≠ []) :
    (d.put place entry).get? place = some entry := by simp [get?, put, h]

theorem get?_put_of_ne (d : Disk) {place other : Place} (entry : Entry) (h : other ≠ place) :
    (d.put place entry).get? other = d.get? other := by
  have hkeep : (other != place) = true := bne_iff_ne.mpr h
  simp only [get?, put, List.lookup_cons, beq_eq_false_iff_ne.mpr h, lookup_filter_key (· != place), hkeep, if_true]

/-- The disk without what is at a place and below it. -/
def erase (d : Disk) (place : Place) : Disk := { d with entries := d.entries.filter fun e => !place.isPrefixOf e.1 }

theorem get?_erase_of_below (d : Disk) {place other : Place} (hother : other ≠ []) (h : place <+: other) :
    (d.erase place).get? other = none := by
  rw [get?, if_neg hother, erase, lookup_filter_key (fun p => !place.isPrefixOf p), if_neg]
  simpa using h

theorem get?_erase_of_not_below (d : Disk) {place other : Place} (h : ¬ place <+: other) :
    (d.erase place).get? other = d.get? other := by
  have hkeep : (!place.isPrefixOf other) = true := by simpa [← List.isPrefixOf_iff_prefix] using h
  simp only [get?, erase, lookup_filter_key (fun p => !place.isPrefixOf p), hkeep, if_true]

/-- An empty disk but for a working directory. -/
def empty (workingDirectory : Place) : Disk :=
  (List.range workingDirectory.length).foldl (fun d n => d.put (workingDirectory.take (n + 1)) .directory)
    ⟨[], workingDirectory⟩

/-- The greatest length of a name, in bytes. -/
def maxName : Nat := 255

/-- The length from which on a path is too long, in bytes. -/
def maxPath : Nat := 4096

/-- How many links are followed on the way to one place. -/
def maxLinks : Nat := 40

/-- Where a text starts from: the root, if it starts with a slash. -/
def origin (place : Place) (text : List Char) : Place := if text.head? = some '/' then [] else place

/-- Follows segments from a place on; `follow` goes on after a link. -/
def walkSegments (d : Disk) (follow : Place → List (List Char) → Except SystemError Place) :
    Place → List (List Char) → Except SystemError Place
  | place, [] => .ok place
  | place, segment :: segments =>
    if d.get? place ≠ some .directory then .error .notADirectory
    else if segment = [] ∨ segment = ['.'] then walkSegments d follow place segments
    else if segment = ['.', '.'] then walkSegments d follow place.dropLast segments
    else if Text.byteLength segment > maxName then .error .nameTooLong
    else
      let next := place ++ [.ofList segment]
      match d.get? next with
      | none => .error .notFound
      | some (.link target) => follow (origin place target.toList) (splitSlashes target.toList ++ segments)
      | some _ => walkSegments d follow next segments

/-- Follows segments from a place on, through fewer links than `links`. -/
def walk (d : Disk) : (links : Nat) → Place → List (List Char) → Except SystemError Place
  | 0 => fun _ _ => .error .tooManyLinks
  | links + 1 => d.walkSegments (d.walk links)

/-- Checks what can be checked of a path without looking at the disk. -/
def checkPath (p : Path) : Except SystemError Unit :=
  if p.chars.contains '\x00' then .error .nameHasNull
  else if p.chars = [] then .error .notFound
  else if Text.byteLength p.chars ≥ maxPath then .error .nameTooLong
  else .ok ()

/-- The place that a path leads to. -/
def locate (d : Disk) (p : Path) : Except SystemError Place := do
  checkPath p
  d.walk (maxLinks + 1) (origin d.workingDirectory p.chars) (splitSlashes p.chars)

/-- The content of a file. -/
def read (d : Disk) (p : Path) : Except SystemError Text.Bytes := do
  match d.get? (← d.locate p) with
  | some (.file content _) => .ok content
  | some _ => .error .isADirectory
  | none => .error .notFound

/-- Whether a path leads to a regular file. -/
def isFile (d : Disk) (p : Path) : Bool := (d.read p).isOk

/-- The names of what is in a directory. -/
def children (d : Disk) (place : Place) : List String :=
  d.entries.filterMap fun e => if e.1 ≠ [] ∧ e.1.dropLast = place then e.1.getLast? else none

/-- The regular files below a directory at a place, which a path leads to. A directory that is entered again through
a link is left out, and so are those whose name is to be skipped; `fuel` bounds the depth. -/
def filesIn (d : Disk) (skipped : String → Bool) : Nat → List Place → Path → Place → List Path
  | 0, _, _, _ => []
  | fuel + 1, above, p, place =>
    (d.children place).flatMap fun name =>
      let isLink := match d.get? (place ++ [name]) with
        | some (.link _) => true
        | _ => false
      match d.walk (maxLinks + 1) place [name.toList] with
      | .error _ => []
      | .ok next =>
        match d.get? next with
        | some (.file _ _) => [p.join ⟨name⟩]
        | some .directory =>
          if skipped name || (isLink && above.contains next) then []
          else filesIn d skipped fuel (next :: above) (p.join ⟨name⟩) next
        | _ => []

/-- The regular files below the directory that a path leads to, or the file that it leads to itself. -/
def filesBelow (d : Disk) (skipped : String → Bool) (p : Path) : List Path :=
  match d.locate p with
  | .error _ => []
  | .ok place =>
    match d.get? place with
    | some (.file _ _) => [p]
    | some .directory => d.filesIn skipped ((d.entries.length + 1) * (d.entries.length + 1)) [place] p place
    | _ => []

end Disk

end CellGraph
