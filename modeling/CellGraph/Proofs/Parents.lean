import CellGraph.Proofs.Way
import Mathlib.Data.List.DropRight

/-!
# The directory of a path, however it is written

Apart from points, the components of a path are those of the segments that count (`Path.filter_components`). To cut the
last of them off, with whatever slashes and points stand around it, takes the file name from the components and nothing
else (`Path.filter_components_directory`). So it makes no difference whether the directory of a path is taken before or
after the path is made absolute (`Path.components_absolute`), and paths that lead to one file have one file name and one
directory (`Path.directory_of_absolute_eq`).
-/

namespace CellGraph

/-- What segments stand for, apart from points: the root, if the first of them is empty, and the component of each. -/
def segmentComponents (segments : List (List Char)) : List Component :=
  (if segments.head? = some [] then [.root] else []) ++ segments.filterMap segmentComponent?

/-- A text is what its segments stand for. -/
theorem filter_textComponents_of_splitSlashes {text first : List Char} {rest : List (List Char)} (hne : text ≠ [])
    (h : splitSlashes text = first :: rest) :
    (textComponents text).filter (· ≠ .current) = segmentComponents (first :: rest) := by
  have hhead : text.head? = some '/' ↔ first = [] := by
    cases text with
    | nil => exact absurd rfl hne
    | cons c cs =>
      by_cases hc : c = '/'
      · subst hc
        rw [splitSlashes_slash] at h
        simp [(List.cons.inj h).1.symm]
      · cases hs : splitSlashes cs with
        | nil => exact absurd hs (splitSlashes_ne_nil cs)
        | cons segment segments =>
          simp only [splitSlashes, hc, if_false, hs] at h
          simp [hc, (List.cons.inj h).1.symm]
  rw [filter_textComponents, h, segmentComponents]
  simp only [hhead, List.head?_cons, Option.some.injEq]

/-- Whether a segment is no component. -/
def isPoint (segment : List Char) : Bool := (segmentComponent? segment).isNone

/-- Segments at the end that are no components stand for nothing. -/
theorem filterMap_rdropWhile (segments : List (List Char)) :
    (segments.rdropWhile isPoint).filterMap segmentComponent? = segments.filterMap segmentComponent? := by
  have hcut : (segments.rtakeWhile isPoint).filterMap segmentComponent? = [] :=
    List.filterMap_eq_nil_iff.mpr fun segment hsegment =>
      Option.isNone_iff_eq_none.mp (List.mem_rtakeWhile_imp (p := isPoint) hsegment)
  have hsplit : segments.rdropWhile isPoint ++ segments.rtakeWhile isPoint = segments :=
    List.rdropWhile_append_rtakeWhile
  have hboth := congrArg (List.filterMap segmentComponent?) hsplit
  rwa [List.filterMap_append, hcut, List.append_nil] at hboth

namespace Path

variable {p q : Path} {name name' : String}

theorem cutSegments_of_chars_ne_nil {first : List Char} {rest : List (List Char)} (hne : p.chars ≠ [])
    (h : splitSlashes p.chars = first :: rest) : p.cutSegments = first :: rest.rdropWhile isPoint := by
  unfold cutSegments
  rw [h]
  split
  · rename_i hnil
    cases hnil
  · rename_i hempty
    have hchars := joinSlashes_splitSlashes p.chars
    rw [h, hempty] at hchars
    exact absurd hchars.symm hne
  · rename_i hsegments
    cases hsegments
    rfl

/-- The segments of a path up to its last component: none, or the first one and those behind it. -/
theorem cutSegments_cases (p : Path) : p.chars = [] ∧ p.cutSegments = [] ∨ p.chars ≠ [] ∧ ∃ first rest,
    splitSlashes p.chars = first :: rest ∧ p.cutSegments = first :: rest.rdropWhile isPoint := by
  by_cases hne : p.chars = []
  · refine Or.inl ⟨hne, ?_⟩
    rw [cutSegments, hne]
    rfl
  · cases hs : splitSlashes p.chars with
    | nil => exact absurd hs (splitSlashes_ne_nil p.chars)
    | cons first rest => exact Or.inr ⟨hne, first, rest, rfl, cutSegments_of_chars_ne_nil hne hs⟩

theorem not_mem_of_mem_cutSegments {segment : List Char} (h : segment ∈ p.cutSegments) : '/' ∉ segment := by
  obtain ⟨-, hcut⟩ | ⟨-, first, rest, hs, hcut⟩ := p.cutSegments_cases
  · rw [hcut] at h
    cases h
  · rw [hcut] at h
    have hsubset : first :: rest.rdropWhile isPoint ⊆ splitSlashes p.chars :=
      hs ▸ List.cons_subset_cons first (List.rdropWhile_prefix isPoint rest).subset
    exact not_mem_of_mem_splitSlashes (hsubset h)

/-- Apart from points, the components of a path are what its segments up to the last component stand for. -/
theorem filter_components (p : Path) : p.components.filter (· ≠ .current) = segmentComponents p.cutSegments := by
  unfold components
  obtain ⟨hnil, hcut⟩ | ⟨hne, first, rest, hs, hcut⟩ := p.cutSegments_cases
  · rw [hcut, hnil]
    rfl
  · rw [filter_textComponents_of_splitSlashes hne hs, hcut, segmentComponents, segmentComponents, List.filterMap_cons,
      List.filterMap_cons, filterMap_rdropWhile]
    rfl

/-- Segments stand for the same when they make up a path. -/
theorem filter_components_ofSegments {segments : List (List Char)} (h : ∀ segment ∈ segments, '/' ∉ segment) :
    (ofSegments segments).components.filter (· ≠ .current) = segmentComponents segments := by
  by_cases hnil : segments = []
  · subst hnil
    rfl
  by_cases hroot : segments = [[]]
  · subst hroot
    decide
  have hsplit := splitSlashes_joinSlashes hnil h
  have hne : joinSlashes segments ≠ [] := fun e => hroot (by rw [← hsplit, e]; rfl)
  have hchars : (ofSegments segments).chars = joinSlashes segments := by
    unfold ofSegments
    split
    · exact absurd rfl hroot
    · exact String.toList_ofList
  obtain ⟨first, rest, rfl⟩ := List.exists_cons_of_ne_nil hnil
  rw [components, hchars]
  exact filter_textComponents_of_splitSlashes hne hsplit

/-! ## Without the file name -/

theorem exists_of_fileName? (h : p.fileName? = some name) : ∃ above, p.components = above ++ [.normal name] := by
  unfold fileName? at h
  split at h
  · rename_i hlast
    cases h
    exact List.getLast?_eq_some_iff.mp hlast
  · cases h

/-- The last of the segments that count is the file name. -/
theorem exists_cutSegments_eq (h : p.fileName? = some name) : ∃ above, p.cutSegments = above ++ [name.toList] ∧
    segmentComponent? name.toList = some (.normal name) := by
  obtain ⟨above, habove⟩ := exists_of_fileName? h
  have hlast : (segmentComponents p.cutSegments).getLast? = some (.normal name) := by
    rw [← filter_components, habove]
    simp
  have hname : ∀ (front : List (List Char)) {last : List Char}, p.cutSegments = front ++ [last] →
      (segmentComponent? last).isSome = true → last = name.toList ∧ segmentComponent? last = some (.normal name) := by
    intro front last hcut hsome
    obtain ⟨c, hc⟩ := Option.isSome_iff_exists.mp hsome
    have hslash : '/' ∉ last := not_mem_of_mem_cutSegments (p := p) (by simp [hcut])
    obtain rfl : c = .normal name := by
      simpa [hcut, segmentComponents, hc] using hlast
    exact ⟨(Component.plain_of_segmentComponent? hslash hc).2.symm, hc⟩
  obtain ⟨-, hcut⟩ | ⟨-, first, rest, -, hcut⟩ := p.cutSegments_cases
  · rw [hcut] at hlast
    cases hlast
  · by_cases hrest : rest.rdropWhile isPoint = []
    · -- the first segment is all there is, and it is no root
      rw [hrest] at hcut
      cases hfirst : segmentComponent? first with
      | none =>
        rw [hcut, segmentComponents] at hlast
        simp only [List.filterMap_cons, hfirst, List.filterMap_nil, List.append_nil] at hlast
        split at hlast <;> cases hlast
      | some c =>
        obtain ⟨rfl, hcomponent⟩ := hname [] hcut (by rw [hfirst]; rfl)
        exact ⟨[], hcut, hcomponent⟩
    · have hkept := List.rdropWhile_last_not isPoint rest hrest
      obtain ⟨front, last, hfront⟩ : ∃ front last, rest.rdropWhile isPoint = front ++ [last] :=
        ⟨_, _, (List.dropLast_append_getLast hrest).symm⟩
      simp only [hfront, List.getLast_concat] at hkept
      rw [hfront, ← List.cons_append] at hcut
      obtain ⟨rfl, hcomponent⟩ := hname _ hcut (by simpa [isPoint, Option.isSome_iff_ne_none] using hkept)
      exact ⟨_, hcut, hcomponent⟩

theorem plain_of_fileName? (h : p.fileName? = some name) : (Component.normal name).Plain := by
  obtain ⟨above, hcut, hname⟩ := exists_cutSegments_eq h
  exact ⟨not_mem_of_mem_cutSegments (p := p) (hcut ▸ List.mem_append_right _ List.mem_cons_self), hname⟩

/-- The components of a path are those of its directory, apart from points, and its file name. -/
theorem filter_components_directory (h : p.fileName? = some name) :
    p.components.filter (· ≠ .current) = p.directory.components.filter (· ≠ .current) ++ [.normal name] := by
  obtain ⟨above, habove⟩ := exists_of_fileName? h
  obtain ⟨front, hcut, hname⟩ := exists_cutSegments_eq h
  have hslash : ∀ segment ∈ front, '/' ∉ segment := fun segment hsegment =>
    not_mem_of_mem_cutSegments (p := p) (hcut ▸ List.mem_append_left _ hsegment)
  have hdirectory : p.directory = ofSegments (ofSegments front).cutSegments := by
    simp only [directory, parent?, habove, List.getLast?_concat, hcut, List.dropLast_concat, Option.getD_some]
  -- what is left is made a path and cut again, and that takes no component away
  have hcutAgain : segmentComponents (ofSegments front).cutSegments = segmentComponents front := by
    rw [← filter_components, filter_components_ofSegments hslash]
  rw [filter_components, hdirectory, filter_components_ofSegments fun _ => not_mem_of_mem_cutSegments, hcutAgain, hcut]
  have hne : name.toList ≠ [] := fun e => by
    rw [e] at hname
    cases hname
  have hhead : (front ++ [name.toList]).head? = some [] ↔ front.head? = some [] := by cases front <;> simp [hne]
  have hlast : [name.toList].filterMap segmentComponent? = [.normal name] := by simp [hname]
  simp only [segmentComponents, hhead, List.filterMap_append, hlast, List.append_assoc]

/-! ## Absolute paths -/

/-- The directory of a path is absolute if the path is. -/
theorem isAbsolute_directory (h : p.fileName? = some name) : p.directory.isAbsolute = p.isAbsolute := by
  rw [Bool.eq_iff_iff, isAbsolute_iff, isAbsolute_iff, filter_components_directory h]
  simp

/-- Made absolute, a path has the components of its directory and its file name. -/
theorem components_absolute (h : p.fileName? = some name) (workingDirectory : Path) :
    (p.absolute workingDirectory).components =
      (p.directory.absolute workingDirectory).components ++ [.normal name] := by
  have hnamed : Named [.normal name] := by simpa [Named] using plain_of_fileName? h
  have hdirectory := isAbsolute_directory h
  rw [absolute, absolute, components_normalize, components_normalize, ← normalComponents_append _ hnamed]
  cases hp : p.isAbsolute with
  | true =>
    rw [hp] at hdirectory
    have hjoin : ∀ {q : Path}, q.isAbsolute = true → workingDirectory.join q = q := fun hq => by
      simp only [join, hq, if_true]
    rw [hjoin hp, hjoin hdirectory, ← normalComponents_filter, filter_components_directory h,
      ← normalComponents_filter (p.directory.components ++ _), List.filter_append]
    rfl
  | false =>
    rw [hp] at hdirectory
    rw [← normalComponents_filter, filter_components_join _ hp, filter_components_directory h,
      ← normalComponents_filter ((workingDirectory.join p.directory).components ++ _), List.filter_append,
      filter_components_join _ hdirectory, List.append_assoc]
    rfl

/-- Paths that lead to one file have one file name, and their directories lead to one directory. -/
theorem directory_of_absolute_eq {workingDirectory : Path} (hp : p.fileName? = some name)
    (hq : q.fileName? = some name') (h : q.absolute workingDirectory = p.absolute workingDirectory) :
    name' = name ∧ q.directory.absolute workingDirectory = p.directory.absolute workingDirectory := by
  have hcomponents := components_absolute hq workingDirectory
  rw [h, components_absolute hp workingDirectory] at hcomponents
  obtain ⟨hdirectory, hname⟩ := List.append_inj' hcomponents rfl
  refine ⟨Component.normal.inj (List.cons.inj hname).1.symm, ?_⟩
  exact normalize_eq_of_same (same_iff.mpr hdirectory.symm)

end Path

end CellGraph
