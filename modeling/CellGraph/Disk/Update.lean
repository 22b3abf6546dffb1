import CellGraph.Disk.Basic

/-!
# Changing disks

Directories are made with all those above them, files are written through links, and what is removed is the entry that
a path names, not what a link leads to. `Disk.fileSystem` is the file system that a disk is.
-/

namespace CellGraph.Disk

/-- Makes directories for segments from a place on: where they lead, and the disk after. -/
def makeSegments : Disk → Place → List (List Char) → Option (Place × Disk)
  | d, place, [] => some (place, d)
  | d, place, segment :: segments =>
    if segment = [] ∨ segment = ['.'] then makeSegments d place segments
    else if segment = ['.', '.'] then makeSegments d place.dropLast segments
    else
      let next := place ++ [.ofList segment]
      match d.get? next with
      | none => makeSegments (d.put next .directory) next segments
      | some _ =>
        match d.walk (maxLinks + 1) place [segment] with
        | .ok found => if d.get? found = some .directory then makeSegments d found segments else none
        | .error _ => none

/-- Makes a directory with those above it. -/
def makeDirectory (d : Disk) (p : Path) : Option Disk :=
  (makeSegments d (origin d.workingDirectory p.chars) (splitSlashes p.chars)).map Prod.snd

/-- The directory that the last segment of a path is in, made if needed, and that segment. -/
def makeParent (d : Disk) (p : Path) : Option (Place × String × Disk) :=
  match (splitSlashes p.chars).reverse with
  | [] => none
  | last :: above =>
    if (segmentComponent? last).isNone then none
    else (makeSegments d (origin d.workingDirectory p.chars) above.reverse).map
      fun (place, d) => (place, .ofList last, d)

/-- Writes a file. One that is there keeps its permissions but may become executable. -/
def write (d : Disk) (p : Path) (content : Text.Bytes) (executable : Bool) : Option Disk := do
  let (place, name, d) ← d.makeParent p
  match d.get? (place ++ [name]) with
  | none => return d.put (place ++ [name]) (.file content executable)
  | some _ =>
    match d.walk (maxLinks + 1) place [name.toList] with
    | .ok found =>
      match d.get? found with
      | some (.file _ old) => return d.put found (.file content (old || executable))
      | _ => none
    | .error _ => none

/-- Makes a link where nothing is. -/
def makeLink (d : Disk) (p : Path) (target : String) : Option Disk := do
  let (place, name, d) ← d.makeParent p
  if (d.get? (place ++ [name])).isSome then none else return d.put (place ++ [name]) (.link target)

/-- The place of the entry that a path names, without following a link there. -/
def entryPlace (d : Disk) (p : Path) : Except SystemError Place := do
  checkPath p
  match (splitSlashes p.chars).reverse with
  | [] => .error .notFound
  | last :: above =>
    match segmentComponent? last with
    | some (.normal name) => do
      let place ← d.walk (maxLinks + 1) (origin d.workingDirectory p.chars) above.reverse
      if d.get? place ≠ some .directory then .error .notADirectory
      else if (d.get? (place ++ [name])).isSome then .ok (place ++ [name])
      else .error .notFound
    | _ => .error .isADirectory

/-- Removes a file or link. -/
def remove (d : Disk) (p : Path) : Option Disk :=
  match d.entryPlace p with
  | .error _ => none
  | .ok place => if d.get? place = some .directory then none else some (d.erase place)

/-- Removes whatever a path names, with all that is below it. -/
def removeTree (d : Disk) (p : Path) : Option Disk :=
  match d.entryPlace p with
  | .error _ => none
  | .ok place => some (d.erase place)

/-- The file system that a disk is. -/
def fileSystem : FileSystem Disk where
  read p d := d.read p
  isFile p d := d.isFile p
  filesBelow skipped p d := d.filesBelow skipped p
  remove p d := d.remove p

end CellGraph.Disk
