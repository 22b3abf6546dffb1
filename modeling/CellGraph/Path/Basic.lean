import CellGraph.Text.Layout

/-!
# Paths

A path is a text; what counts of it are its components. Repeated slashes, a slash at the end and points inside a path
are no components, a point at its start is one. Two paths are the same, `same`, if their components are. The operations
that cut a path work on `segments`, what stands between its slashes, so that the rest of the text stays as it is.

Only paths that are texts (of Unicode characters) are represented. The paths of a system are bytes, which need not be
the form of a text, and wherever one that is none is named, it is converted with loss: what is no character becomes a
replacement character. For the names of files and what they lead to, both kinds of paths are handled (`Encoding`).
-/

namespace CellGraph

/-- A path, as it is written. -/
structure Path where
  text : String
  deriving DecidableEq, Repr

/-- A component of a path. -/
inductive Component
  | root
  | current
  | parent
  | normal (name : String)
  deriving DecidableEq, Repr

namespace Component

/-- A component as it is written. -/
def text : Component → String
  | root => "/"
  | current => "."
  | parent => ".."
  | normal name => name

/-- The place of a component among those of other kinds. -/
def rank : Component → Nat
  | root => 0
  | current => 1
  | parent => 2
  | normal _ => 3

/-- Whether a component comes before another one. -/
def before : Component → Component → Bool
  | normal a, normal b => a < b
  | a, b => a.rank < b.rank

end Component

/-- What stands between the slashes of a text. -/
def splitSlashes : List Char → List (List Char)
  | [] => [[]]
  | c :: cs =>
    if c = '/' then [] :: splitSlashes cs
    else match splitSlashes cs with
      | [] => [[c]]
      | segment :: segments => (c :: segment) :: segments

/-- Texts with slashes between them. -/
def joinSlashes : List (List Char) → List Char
  | [] => []
  | [segment] => segment
  | segment :: segments => segment ++ '/' :: joinSlashes segments

theorem splitSlashes_ne_nil (text : List Char) : splitSlashes text ≠ [] := by
  cases text with
  | nil => simp [splitSlashes]
  | cons c cs =>
    unfold splitSlashes
    split
    · simp
    · split <;> simp

/-- The segments of a text make up the text. -/
theorem joinSlashes_splitSlashes (text : List Char) : joinSlashes (splitSlashes text) = text := by
  induction text with
  | nil => rfl
  | cons c cs ih =>
    unfold splitSlashes
    split
    · rename_i h
      subst h
      cases hs : splitSlashes cs with
      | nil => exact absurd hs (splitSlashes_ne_nil cs)
      | cons segment segments => rw [hs] at ih; simp [joinSlashes, ih]
    · cases hs : splitSlashes cs with
      | nil => exact absurd hs (splitSlashes_ne_nil cs)
      | cons segment segments =>
        rw [hs] at ih
        cases segments with
        | nil => simp only [joinSlashes] at ih ⊢; rw [ih]
        | cons s ss => simp only [joinSlashes] at ih ⊢; simp [ih]

/-- The component that a segment is, unless it is empty or a point. -/
def segmentComponent? (segment : List Char) : Option Component :=
  match segment with
  | [] => none
  | ['.'] => none
  | ['.', '.'] => some .parent
  | name => some (.normal (.ofList name))

/-- The components of a text. -/
def textComponents (text : List Char) : List Component :=
  match splitSlashes text with
  | [] => []
  | [] :: [] => []
  | [] :: segments => .root :: segments.filterMap segmentComponent?
  | ['.'] :: segments => .current :: segments.filterMap segmentComponent?
  | segments => segments.filterMap segmentComponent?

namespace Path

/-- The characters of a path. -/
def chars (p : Path) : List Char := p.text.toList

/-- The path with the given characters. -/
def ofChars (cs : List Char) : Path := ⟨.ofList cs⟩

/-- The components of a path. -/
def components (p : Path) : List Component := textComponents p.chars

/-- Whether two paths have the same components. -/
def same (p q : Path) : Bool := p.components == q.components

theorem same_iff {p q : Path} : p.same q = true ↔ p.components = q.components := by simp [same]

@[simp] theorem same_refl (p : Path) : p.same p = true := same_iff.mpr rfl

theorem same_comm (p q : Path) : p.same q = q.same p := by
  rw [Bool.eq_iff_iff, same_iff, same_iff, eq_comm]

theorem same_trans {p q r : Path} (hpq : p.same q = true) (hqr : q.same r = true) : p.same r = true :=
  same_iff.mpr ((same_iff.mp hpq).trans (same_iff.mp hqr))

/-- Whether a path starts at the root. -/
def isAbsolute (p : Path) : Bool := p.chars.head? == some '/'

/-- A path that goes on with another one; an absolute path stands for itself. A relative one is written behind a
slash. -/
def join (p q : Path) : Path :=
  if q.isAbsolute then q
  else if p.chars = [] || p.chars.getLast? == some '/' then ⟨p.text ++ q.text⟩
  else ⟨p.text ++ "/" ++ q.text⟩

/-- The path with the given components. -/
def ofComponents (cs : List Component) : Path := cs.foldl (fun p c => p.join ⟨c.text⟩) ⟨""⟩

/-- The segments of a path up to the last one that is a component. -/
def cutSegments (p : Path) : List (List Char) :=
  match splitSlashes p.chars with
  | [] | [[]] => []
  | first :: segments =>
    first :: (segments.reverse.dropWhile fun segment => (segmentComponent? segment).isNone).reverse

/-- The path that segments make up; a single empty one is the root. -/
def ofSegments (segments : List (List Char)) : Path :=
  match segments with
  | [[]] => ⟨"/"⟩
  | segments => ofChars (joinSlashes segments)

/-- The path without its last component. The root and the empty path have none. -/
def parent? (p : Path) : Option Path :=
  match p.components.getLast? with
  | none | some .root => none
  | some _ => some (ofSegments (ofSegments p.cutSegments.dropLast).cutSegments)

/-- A path and those above it, at most `steps` of them. -/
def ancestorsFrom : Nat → Path → List Path
  | 0, _ => []
  | steps + 1, p =>
    p :: match p.parent? with
      | some parent => ancestorsFrom steps parent
      | none => []

/-- A path and those above it. -/
def ancestors (p : Path) : List Path := ancestorsFrom (p.components.length + 1) p

/-- The name of the file that a path leads to. -/
def fileName? (p : Path) : Option String :=
  match p.components.getLast? with
  | some (.normal name) => some name
  | _ => none

/-- The stem of a file name and its extension. A point at the start of a name starts no extension. -/
def splitName (name : List Char) : List Char × Option (List Char) :=
  let extension := name.reverse.takeWhile (· != '.')
  let stem := (name.reverse.drop (extension.length + 1)).reverse
  if stem = [] then (name, none) else (stem, some extension.reverse)

/-- What follows the last point of the file name. -/
def extension? (p : Path) : Option String :=
  p.fileName?.bind fun name => (splitName name.toList).2.map .ofList

/-- The extension of the file name, empty if there is none. -/
def extension (p : Path) : String := p.extension?.getD ""

/-- The path with another extension of the file name. A last segment whose stem is a point loses its extension first;
the two points left are a step up and take no other. -/
def withExtension (p : Path) (extension : String) : Path :=
  match p.fileName? with
  | none => p
  | some name =>
    let stem := (splitName name.toList).1
    let named :=
      if stem = ['.'] ∧ (splitSlashes p.chars).getLast? = some name.toList then ['.', '.']
      else if extension = "" then stem
      else stem ++ '.' :: extension.toList
    ofChars (joinSlashes (p.cutSegments.dropLast ++ [named]))

/-- Whether components come before others. -/
def componentsBefore : List Component → List Component → Bool
  | [], [] => false
  | [], _ :: _ => true
  | _ :: _, [] => false
  | a :: as, b :: bs => a.before b || (a == b && componentsBefore as bs)

/-- Whether a path comes before another one, component by component. -/
def before (p q : Path) : Bool := componentsBefore p.components q.components

/-- The directory a file is in; a path without one is in the current directory. -/
def directory (p : Path) : Path := p.parent?.getD ⟨"."⟩

end Path

end CellGraph
