import CellGraph.Path.Basic
import CellGraph.Text.Utf8

/-!
# File systems

What a build asks of a file system, over any type `σ` of its states: the bytes of a file, whether a path leads to a
regular file, the files below a directory, and removal. Reading changes nothing.
-/

namespace CellGraph

/-- Why a file cannot be read or a program cannot be started. -/
inductive SystemError
  | notFound
  | permissionDenied
  | notADirectory
  | isADirectory
  | notAProgram
  | nameTooLong
  | tooManyLinks
  | nameHasNull
  | notText
  deriving DecidableEq, Repr

/-- What the system says of an error. -/
def SystemError.message : SystemError → String
  | notFound => "No such file or directory (os error 2)"
  | permissionDenied => "Permission denied (os error 13)"
  | notADirectory => "Not a directory (os error 20)"
  | isADirectory => "Is a directory (os error 21)"
  | notAProgram => "Exec format error (os error 8)"
  | nameTooLong => "File name too long (os error 36)"
  | tooManyLinks => "Too many levels of symbolic links (os error 40)"
  | nameHasNull => "file name contained an unexpected NUL byte"
  | notText => "stream did not contain valid UTF-8"

/-- What a build asks of a file system. -/
structure FileSystem (σ : Type) where
  /-- The content of a file. -/
  read : Path → σ → Except SystemError Text.Bytes
  /-- Whether a path leads to a regular file. -/
  isFile : Path → σ → Bool
  /-- The regular files below a directory, apart from those in directories whose name is to be skipped. -/
  filesBelow : (skipped : String → Bool) → Path → σ → List Path
  /-- Removes a file, if there is one. -/
  remove : Path → σ → Option σ

namespace FileSystem

variable {σ : Type}

/-- The file system of a part of a larger state. -/
def ofPart {τ : Type} (fs : FileSystem σ) (get : τ → σ) (set : σ → τ → τ) : FileSystem τ where
  read p t := fs.read p (get t)
  isFile p t := fs.isFile p (get t)
  filesBelow skipped p t := fs.filesBelow skipped p (get t)
  remove p t := (fs.remove p (get t)).map fun s => set s t

/-- The content of a file as a text. -/
def readText (fs : FileSystem σ) (p : Path) (s : σ) : Except SystemError String := do
  match Text.decode? (← fs.read p s) with
  | some text => .ok text
  | none => .error .notText

/-- Removes files in turn: how many there were, and the state after. -/
def removeAll (fs : FileSystem σ) : List Path → σ → Nat × σ
  | [], s => (0, s)
  | p :: ps, s =>
    match fs.remove p s with
    | some s => let (count, s) := removeAll fs ps s; (count + 1, s)
    | none => removeAll fs ps s

end FileSystem

/-- What is looked up in a table, after it has been filtered by key. -/
theorem lookup_filter_key {α β : Type} [BEq α] [LawfulBEq α] (keep : α → Bool) (key : α) (table : List (α × β)) :
    (table.filter fun row => keep row.1).lookup key = if keep key then table.lookup key else none := by
  induction table with
  | nil => cases keep key <;> rfl
  | cons row table ih =>
    obtain ⟨found, value⟩ := row
    rw [List.filter_cons]
    by_cases hfound : key = found
    · subst hfound
      cases hkeep : keep key with
      | false => simp [hkeep, ih]
      | true => simp
    · have hne : (key == found) = false := beq_eq_false_iff_ne.mpr hfound
      cases hkeep : keep found with
      | false => simp [List.lookup_cons, hne, ih]
      | true => simp [List.lookup_cons, hne, ih]

end CellGraph
