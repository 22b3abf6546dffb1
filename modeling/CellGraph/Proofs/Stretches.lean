import CellGraph.Document.Fence

/-!
# Cells are stretches of lines

A document is read line by line. Some lines open or close a fence, and what stands between two of these is a stretch.
`Scan` is how far this has come. The cells are stretches of whole lines at their places (`exists_of_mem_segmentLines`),
one behind the other (`pairwise_segmentLines`). A line is in no cell just if it opens or closes a fence, or belongs to a
blank stretch outside of fences (`InNoCell`). So nothing is lost and nothing is there twice (`segment_covers`).
-/

namespace CellGraph

/-! ## Lengths and lines -/

namespace Text

variable {line : List Char} {text : List Char}

theorem byteLength_pos (h : line ≠ []) : 0 < byteLength line := by
  cases line with
  | nil => exact absurd rfl h
  | cons c cs =>
    rw [byteLength]
    exact Nat.add_pos_left c.utf8Size_pos _

/-- No line is empty. -/
theorem ne_nil_of_mem_splitLines (h : line ∈ splitLines text) : line ≠ [] := by
  induction text generalizing line with
  | nil => cases h
  | cons c cs ih =>
    unfold splitLines at h
    split at h
    · rcases List.mem_cons.mp h with rfl | h
      · exact List.cons_ne_nil _ _
      · exact ih h
    · cases hs : splitLines cs with
      | nil =>
        rw [hs] at h
        rw [List.mem_singleton.mp h]
        exact List.cons_ne_nil _ _
      | cons first rest =>
        rw [hs] at h
        rcases List.mem_cons.mp h with rfl | h
        · exact List.cons_ne_nil _ _
        · exact ih (hs ▸ List.mem_cons_of_mem _ h)

/-- Whether a line starts so many bytes behind the start of a text, or the text ends there. -/
def IsLineBound (text : List Char) (place : Nat) : Prop :=
  ∃ before after, splitLines text = before ++ after ∧ place = byteLength before.flatten

end Text

namespace Document

open Text

/-! ## Reading lines -/

/-- How far the reading of a document has come: the fence that is open, and the lines of the stretch so far, the last
one first. -/
structure Scan where
  inside : Option Fence
  seen : List (List Char)

namespace Scan

/-- The start of a document. -/
def start : Scan := ⟨none, []⟩

/-- Reads one line. One that opens or closes a fence ends the stretch. -/
def next (s : Scan) (line : List Char) : Scan :=
  match crossing? s.inside line with
  | some inside => ⟨inside, []⟩
  | none => { s with seen := line :: s.seen }

/-- Reads lines. -/
def after (s : Scan) (lines : List (List Char)) : Scan := lines.foldl next s

/-- The stretch that is being read, to its end, if the given lines follow. -/
def stretch (s : Scan) (lines : List (List Char)) : List (List Char) :=
  s.seen.reverse ++ lines.takeWhile fun line => (crossing? s.inside line).isNone

end Scan

/-- What a line is that is in no cell, given the lines before it and behind it: it opens a fence, closes one, or is part
of a blank stretch outside of fences, from the last fence, or the start of the document, to the next one, or its end. -/
inductive InNoCell (before : List (List Char)) (line : List Char) (after : List (List Char)) : Prop
  | opens (houtside : (Scan.start.after before).inside = none) (hopens : (openedFence? line).isSome = true)
  | closes (fence : Fence) (hinside : (Scan.start.after before).inside = some fence)
      (hcloses : fence.isClosedBy line = true)
  | blank (houtside : (Scan.start.after before).inside = none) (hline : openedFence? line = none)
      (hblank : isAllBlank ((Scan.start.after before).stretch (line :: after)).flatten = true)

section Lines

variable {inside : Option Fence} {start : Nat} {seen lines : List (List Char)} {c : Cell}

/-- Lines that neither open nor close a fence belong to the stretch. -/
theorem segmentLines_append (h : ∀ line ∈ lines, crossing? inside line = none) (rest : List (List Char)) :
    segmentLines inside start seen (lines ++ rest) = segmentLines inside start (lines.reverse ++ seen) rest := by
  induction lines generalizing seen with
  | nil => rfl
  | cons line lines ih =>
    obtain ⟨hline, hlines⟩ := List.forall_mem_cons.mp h
    rw [List.cons_append, segmentLines, hline, List.reverse_cons, List.append_assoc]
    exact ih hlines

/-! ## Where cells are -/

theorem eq_of_mem_stretchCells {text : List Char} (h : c ∈ stretchCells inside start text) :
    c.source = text ∧ c.start = start ∧ c.stop = start + byteLength text := by
  unfold stretchCells at h
  split at h
  · rw [List.mem_singleton.mp h]
    exact ⟨rfl, rfl, rfl⟩
  · split at h
    · cases h
    · rw [List.mem_singleton.mp h]
      exact ⟨rfl, rfl, rfl⟩

/-- A stretch is a cell unless it is blank and outside of fences. -/
theorem stretchCells_eq_nil_iff {text : List Char} :
    stretchCells inside start text = [] ↔ inside = none ∧ isAllBlank text = true := by
  unfold stretchCells
  cases inside with
  | some fence => simp
  | none => cases isAllBlank text <;> simp

/-- A cell consists of whole lines, at their place. -/
theorem exists_of_mem_segmentLines (h : c ∈ segmentLines inside start seen lines) : ∃ before own after,
    seen.reverse ++ lines = before ++ own ++ after ∧ c.source = own.flatten ∧
      c.start = start + byteLength before.flatten ∧ c.stop = c.start + byteLength own.flatten := by
  induction lines generalizing inside start seen with
  | nil =>
    obtain ⟨hsource, hstart, hstop⟩ := eq_of_mem_stretchCells h
    exact ⟨[], seen.reverse, [], by simp, hsource, hstart, hstart ▸ hstop⟩
  | cons line lines ih =>
    rw [segmentLines] at h
    split at h
    · rcases List.mem_append.mp h with h | h
      · obtain ⟨hsource, hstart, hstop⟩ := eq_of_mem_stretchCells h
        exact ⟨[], seen.reverse, line :: lines, by simp, hsource, hstart, hstart ▸ hstop⟩
      · obtain ⟨before, own, after, hlines, hsource, hstart, hstop⟩ := ih h
        refine ⟨seen.reverse ++ line :: before, own, after, ?_, hsource, ?_, hstop⟩
        · rw [List.reverse_nil, List.nil_append] at hlines
          simp [hlines]
        · simp only [hstart, List.flatten_append, List.flatten_cons, byteLength_append]
          omega
    · obtain ⟨before, own, after, hlines, hcell⟩ := ih h
      exact ⟨before, own, after, by simpa using hlines, hcell⟩

theorem le_start_of_mem_segmentLines (h : c ∈ segmentLines inside start [] lines) : start ≤ c.start := by
  obtain ⟨before, own, after, -, -, hstart, -⟩ := exists_of_mem_segmentLines h
  rw [hstart]
  exact Nat.le_add_right _ _

theorem pairwise_stretchCells (inside : Option Fence) (start : Nat) (text : List Char) :
    (stretchCells inside start text).Pairwise fun c d => c.stop < d.start := by
  unfold stretchCells
  split
  · exact List.pairwise_singleton _ _
  · split
    · exact .nil
    · exact List.pairwise_singleton _ _

/-- Every cell ends before the next one starts. -/
theorem pairwise_segmentLines (h : ∀ line ∈ lines, line ≠ []) :
    (segmentLines inside start seen lines).Pairwise fun c d => c.stop < d.start := by
  induction lines generalizing inside start seen with
  | nil => exact pairwise_stretchCells _ _ _
  | cons line lines ih =>
    obtain ⟨hline, hlines⟩ := List.forall_mem_cons.mp h
    rw [segmentLines]
    split
    · refine List.pairwise_append.mpr ⟨pairwise_stretchCells _ _ _, ih hlines, ?_⟩
      -- the line between them is not empty
      intro c hc d hd
      obtain ⟨-, -, hstop⟩ := eq_of_mem_stretchCells hc
      have hstart := le_start_of_mem_segmentLines hd
      have hpos := byteLength_pos hline
      omega
    · exact ih hlines

end Lines

/-! ## Which lines are in cells -/

namespace Scan

/-- The cells of what follows are that of the stretch that is being read, if it is one, and those behind it. -/
theorem exists_segmentLines_eq (s : Scan) (start : Nat) (lines : List (List Char)) : ∃ behind,
    segmentLines s.inside start s.seen lines = stretchCells s.inside start (s.stretch lines).flatten ++ behind ∧
      ∀ c ∈ behind, start + byteLength (s.stretch lines).flatten ≤ c.start := by
  obtain ⟨inside, seen⟩ := s
  induction lines generalizing seen with
  | nil => exact ⟨[], by simp [segmentLines, stretch], by simp⟩
  | cons line lines ih =>
    cases hline : crossing? inside line with
    | some next =>
      have hstretch : stretch ⟨inside, seen⟩ (line :: lines) = seen.reverse := by simp [stretch, hline]
      refine ⟨segmentLines next (start + byteLength seen.reverse.flatten + byteLength line) [] lines, ?_, ?_⟩
      · rw [segmentLines, hline, hstretch]
      · intro c hc
        have hstart := le_start_of_mem_segmentLines hc
        rw [hstretch]
        omega
    | none =>
      have hstretch : stretch ⟨inside, seen⟩ (line :: lines) = stretch ⟨inside, line :: seen⟩ lines := by
        simp [stretch, hline]
      rw [segmentLines, hline, hstretch]
      exact ih (line :: seen)

/-- Whether the next line opens or closes a fence, or the stretch that it is in is no cell. -/
def Passes (s : Scan) (line : List Char) (after : List (List Char)) : Prop :=
  crossing? s.inside line ≠ none ∨ s.inside = none ∧ isAllBlank (s.stretch (line :: after)).flatten = true

instance (s : Scan) (line : List Char) (after : List (List Char)) : Decidable (s.Passes line after) :=
  inferInstanceAs (Decidable (_ ∨ _))

/-- The next line is in no cell if it passes, and in one otherwise. -/
theorem passes_or_held (s : Scan) (start : Nat) (line : List Char) (after : List (List Char)) :
    (s.Passes line after → ∀ c ∈ segmentLines s.inside start s.seen (line :: after),
      c.stop ≤ start + byteLength s.seen.reverse.flatten ∨
        start + byteLength s.seen.reverse.flatten + byteLength line ≤ c.start) ∧
    (¬ s.Passes line after → ∃ c ∈ segmentLines s.inside start s.seen (line :: after),
      c.start ≤ start + byteLength s.seen.reverse.flatten ∧
        start + byteLength s.seen.reverse.flatten + byteLength line ≤ c.stop) := by
  cases hline : crossing? s.inside line with
  | some next =>
    have hpasses : s.Passes line after := Or.inl (by simp [hline])
    refine ⟨fun _ c hc => ?_, fun h => absurd hpasses h⟩
    rw [segmentLines, hline] at hc
    rcases List.mem_append.mp hc with hc | hc
    · obtain ⟨-, -, hstop⟩ := eq_of_mem_stretchCells hc
      exact Or.inl (Nat.le_of_eq hstop)
    · exact Or.inr (le_start_of_mem_segmentLines hc)
  | none =>
    obtain ⟨behind, hcells, hbehind⟩ := s.exists_segmentLines_eq start (line :: after)
    have hstretch : byteLength s.seen.reverse.flatten + byteLength line ≤
        byteLength (s.stretch (line :: after)).flatten := by
      simp [stretch, hline, byteLength_append]
    have hpasses : s.Passes line after ↔ stretchCells s.inside start (s.stretch (line :: after)).flatten = [] := by
      rw [stretchCells_eq_nil_iff]
      simp [Passes, hline]
    rw [hcells, hpasses]
    constructor
    · intro hnil c hc
      rw [hnil, List.nil_append] at hc
      have hstart := hbehind c hc
      omega
    · intro hne
      obtain ⟨c, hc⟩ := List.exists_mem_of_ne_nil _ hne
      obtain ⟨-, hstart, hstop⟩ := eq_of_mem_stretchCells hc
      exact ⟨c, List.mem_append_left _ hc, by omega, by omega⟩

/-- So it is for any line, further on. -/
theorem after_passes_or_held (s : Scan) (start : Nat) (before : List (List Char)) (line : List Char)
    (after : List (List Char)) :
    ((s.after before).Passes line after → ∀ c ∈ segmentLines s.inside start s.seen (before ++ line :: after),
      c.stop ≤ start + byteLength (s.seen.reverse ++ before).flatten ∨
        start + byteLength (s.seen.reverse ++ before).flatten + byteLength line ≤ c.start) ∧
    (¬ (s.after before).Passes line after → ∃ c ∈ segmentLines s.inside start s.seen (before ++ line :: after),
      c.start ≤ start + byteLength (s.seen.reverse ++ before).flatten ∧
        start + byteLength (s.seen.reverse ++ before).flatten + byteLength line ≤ c.stop) := by
  induction before generalizing s start with
  | nil =>
    rw [List.append_nil]
    exact s.passes_or_held start line after
  | cons first before ih =>
    cases hfirst : crossing? s.inside first with
    | some next =>
      have hafter : s.after (first :: before) = Scan.after ⟨next, []⟩ before := by
        simp [Scan.after, Scan.next, hfirst]
      have hplace : start + byteLength (s.seen.reverse ++ first :: before).flatten =
          start + byteLength s.seen.reverse.flatten + byteLength first + byteLength ([] ++ before).flatten := by
        simp only [List.flatten_append, List.flatten_cons, byteLength_append, List.nil_append]
        omega
      obtain ⟨hout, hheld⟩ := ih ⟨next, []⟩ (start + byteLength s.seen.reverse.flatten + byteLength first)
      rw [hafter, hplace, List.cons_append, segmentLines, hfirst]
      constructor
      · intro hpasses c hc
        rcases List.mem_append.mp hc with hc | hc
        · obtain ⟨-, -, hstop⟩ := eq_of_mem_stretchCells hc
          exact Or.inl (by omega)
        · exact hout hpasses c hc
      · intro hpasses
        obtain ⟨c, hc, hplaces⟩ := hheld hpasses
        exact ⟨c, List.mem_append_right _ hc, hplaces⟩
    | none =>
      have hafter : s.after (first :: before) = Scan.after { s with seen := first :: s.seen } before := by
        simp [Scan.after, Scan.next, hfirst]
      have hseen : s.seen.reverse ++ first :: before = (first :: s.seen).reverse ++ before := by simp
      rw [hafter, hseen, List.cons_append, segmentLines, hfirst]
      exact ih { s with seen := first :: s.seen } start

end Scan

variable {before after : List (List Char)} {line : List Char}

theorem passes_iff_inNoCell : (Scan.start.after before).Passes line after ↔ InNoCell before line after := by
  unfold Scan.Passes
  cases hinside : (Scan.start.after before).inside with
  | none =>
    cases hline : openedFence? line with
    | some fence =>
      have hopens : InNoCell before line after := .opens hinside (by rw [hline]; rfl)
      simp [crossing?, hline, hopens]
    | none =>
      constructor
      · rintro (hcrossing | ⟨-, hblank⟩)
        · exact absurd (by simp [crossing?, hline]) hcrossing
        · exact .blank hinside hline hblank
      · rintro (⟨-, hopens⟩ | ⟨fence, hfence, -⟩ | ⟨-, -, hblank⟩)
        · rw [hline] at hopens
          cases hopens
        · rw [hinside] at hfence
          cases hfence
        · exact Or.inr ⟨rfl, hblank⟩
  | some fence =>
    have hcrossing : crossing? (some fence) line ≠ none ↔ fence.isClosedBy line = true := by
      cases hcloses : fence.isClosedBy line <;> simp [crossing?, hcloses]
    rw [hcrossing]
    constructor
    · rintro (hcloses | ⟨hnone, -⟩)
      · exact .closes fence hinside hcloses
      · cases hnone
    · rintro (⟨houtside, -⟩ | ⟨other, hother, hcloses⟩ | ⟨houtside, -, -⟩)
      · rw [hinside] at houtside
        cases houtside
      · rw [hinside] at hother
        cases hother
        exact Or.inl hcloses
      · rw [hinside] at houtside
        cases houtside

instance : Decidable (InNoCell before line after) := decidable_of_iff _ passes_iff_inNoCell

/-- The cells of a document are stretches of it, each from the start of a line to the start of another, or to the end of
the document, and one behind the other. A line that opens or closes a fence, or is part of a blank stretch outside of
fences, is outside of all of them, and every other line is in one of them. -/
theorem segment_covers (text : List Char) :
    (∀ c ∈ segment text, c.start ≤ c.stop ∧ c.stop ≤ byteLength text ∧
      IsLineBound text c.start ∧ IsLineBound text c.stop ∧
      ∃ before after, text = before ++ c.source ++ after ∧ c.start = byteLength before ∧
        c.stop = byteLength (before ++ c.source)) ∧
    (segment text).Pairwise (fun c d => c.stop < d.start) ∧
    ∀ before line after, splitLines text = before ++ line :: after →
      (InNoCell before line after → ∀ c ∈ segment text, c.stop ≤ byteLength before.flatten ∨
        byteLength before.flatten + byteLength line ≤ c.start) ∧
      (¬ InNoCell before line after → ∃ c ∈ segment text, c.start ≤ byteLength before.flatten ∧
        byteLength before.flatten + byteLength line ≤ c.stop) := by
  refine ⟨?_, pairwise_segmentLines fun line hline => ne_nil_of_mem_splitLines hline, ?_⟩
  · intro c hc
    obtain ⟨before, own, after, hlines, hsource, hstart, hstop⟩ := exists_of_mem_segmentLines hc
    rw [List.reverse_nil, List.nil_append] at hlines
    rw [Nat.zero_add] at hstart
    have htext : text = before.flatten ++ c.source ++ after.flatten := by
      rw [hsource, ← List.flatten_append, ← List.flatten_append, ← hlines, flatten_splitLines]
    have hbytes : byteLength text = c.stop + byteLength after.flatten := by
      rw [htext, byteLength_append, byteLength_append, hstop, hstart, hsource]
    have hend : c.stop = byteLength (before ++ own).flatten := by
      rw [hstop, hstart, List.flatten_append, byteLength_append]
    refine ⟨by omega, by omega, ⟨before, own ++ after, ?_, hstart⟩, ⟨before ++ own, after, hlines, hend⟩, ?_⟩
    · rw [hlines, List.append_assoc]
    · refine ⟨before.flatten, after.flatten, htext, hstart, ?_⟩
      rw [hend, hsource, List.flatten_append]
  · intro before line after hlines
    have hcells := Scan.start.after_passes_or_held 0 before line after
    rw [passes_iff_inNoCell, ← hlines, Nat.zero_add] at hcells
    exact hcells

namespace Mixed

/-- A line of text, a fence of backticks with tildes in it, a blank line, and a fence of tildes that is never closed. -/
def text : List Char := "é\n\x60\x60\x60{ojs}\n~~~\n\x60\x60\x60\n \n~~~ r\nx".toList

/-- The tildes between the backticks are in a cell, and the blank line behind them is in none. -/
theorem covers_lines :
    (splitLines text = ["é\n".toList, "\x60\x60\x60{ojs}\n".toList] ++
        "~~~\n".toList :: ["\x60\x60\x60\n".toList, " \n".toList, "~~~ r\n".toList, "x".toList] ∧
      ∃ c ∈ segment text, c.start ≤ 12 ∧ 16 ≤ c.stop) ∧
    (splitLines text = ["é\n".toList, "\x60\x60\x60{ojs}\n".toList, "~~~\n".toList, "\x60\x60\x60\n".toList] ++
        " \n".toList :: ["~~~ r\n".toList, "x".toList] ∧
      ∀ c ∈ segment text, c.stop ≤ 20 ∨ 22 ≤ c.start) := by
  obtain ⟨-, -, hlines⟩ := segment_covers text
  refine ⟨⟨by decide +kernel, ?_⟩, by decide +kernel, ?_⟩
  · exact (hlines ["é\n".toList, "\x60\x60\x60{ojs}\n".toList] "~~~\n".toList
      ["\x60\x60\x60\n".toList, " \n".toList, "~~~ r\n".toList, "x".toList] (by decide +kernel)).2 (by decide +kernel)
  · exact (hlines ["é\n".toList, "\x60\x60\x60{ojs}\n".toList, "~~~\n".toList, "\x60\x60\x60\n".toList] " \n".toList
      ["~~~ r\n".toList, "x".toList] (by decide +kernel)).1 (by decide +kernel)

end Mixed

end Document

end CellGraph
