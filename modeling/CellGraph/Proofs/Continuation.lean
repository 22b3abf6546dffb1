import CellGraph.Document.ScriptCells
import CellGraph.Proofs.Blocks

/-!
# Documents that go on

A document closes its fences if every line of it that opens one is followed by one that closes it (`ClosesFences`);
after its last line, no fence is open then (`inside_after_eq_none_iff`). What it leaves behind for a text that follows
is at most a stretch outside of fences, and such a stretch has no part in the cells between fences
(`fenced_segmentLines_seen`). So these cells are those of the document and, further on, those of the text that follows
(`scriptCells_append`).
-/

namespace CellGraph.Document

open Text

/-! ## Cells between fences -/

namespace Cell

/-- Whether a cell is other than markdown, as those are that stand between fences. -/
def isFenced (c : Cell) : Bool := c.kind != .markdown

/-- A cell so many bytes further on. -/
def shift (k : Nat) (c : Cell) : Cell := { c with start := c.start + k, stop := c.stop + k }

@[simp] theorem source_shift (k : Nat) (c : Cell) : (c.shift k).source = c.source := rfl

@[simp] theorem isFenced_shift (k : Nat) (c : Cell) : (c.shift k).isFenced = c.isFenced := rfl

theorem shift_ofText (k : Nat) (kind : CellKind) (language : String) (source : List Char) (start : Nat) :
    (ofText kind language source start).shift k = ofText kind language source (start + k) := by
  simp [ofText, shift, Nat.add_right_comm]

end Cell

variable {inside : Option Fence} {start k : Nat} {text : List Char} {line : List Char} {seen lines : List (List Char)}

/-- A stretch outside of fences has no cell between fences. -/
theorem fenced_stretchCells_none (start : Nat) (text : List Char) :
    (stretchCells none start text).filter Cell.isFenced = [] := by
  cases h : isAllBlank text <;> simp [stretchCells, h, Cell.isFenced, markdownCell, Cell.ofText]

/-! ## Cells further on -/

theorem stretchCells_add (inside : Option Fence) (start k : Nat) (text : List Char) :
    stretchCells inside (start + k) text = (stretchCells inside start text).map (Cell.shift k) := by
  unfold stretchCells
  cases inside with
  | some fence => simp [Cell.shift_ofText]
  | none => cases h : isAllBlank text <;> simp [markdownCell, Cell.shift_ofText]

/-- Where a text stands moves its cells and changes nothing else. -/
theorem segmentLines_add (inside : Option Fence) (start k : Nat) (seen lines : List (List Char)) :
    segmentLines inside (start + k) seen lines = (segmentLines inside start seen lines).map (Cell.shift k) := by
  induction lines generalizing inside start seen with
  | nil => exact stretchCells_add _ _ _ _
  | cons line lines ih =>
    rw [segmentLines, segmentLines]
    cases crossing? inside line with
    | none => exact ih inside start (line :: seen)
    | some next =>
      have hplace : start + k + byteLength seen.reverse.flatten + byteLength line =
          start + byteLength seen.reverse.flatten + byteLength line + k := by omega
      simp only [hplace, ih, stretchCells_add, List.map_append]

/-- Lines outside of fences that have been read have no part in the cells between fences. -/
theorem fenced_segmentLines_seen (start : Nat) (seen lines : List (List Char)) :
    (segmentLines none start seen lines).filter Cell.isFenced =
      (segmentLines none (start + byteLength seen.reverse.flatten) [] lines).filter Cell.isFenced := by
  induction lines generalizing start seen with
  | nil => simp [segmentLines, fenced_stretchCells_none]
  | cons line lines ih =>
    rw [segmentLines, segmentLines]
    cases crossing? none line with
    | some next => simp [fenced_stretchCells_none, byteLength]
    | none =>
      -- on both sides, the line has been read now
      have hplace : start + byteLength (line :: seen).reverse.flatten =
          start + byteLength seen.reverse.flatten + byteLength [line].reverse.flatten := by
        simp [byteLength_append, Nat.add_assoc]
      rw [ih start (line :: seen), ih (start + byteLength seen.reverse.flatten) [line], hplace]

/-- If no fence is open after some lines, what follows is read as if it stood alone. -/
theorem fenced_segmentLines_append (s : Scan) (start : Nat) (before after : List (List Char))
    (h : (s.after before).inside = none) :
    (segmentLines s.inside start s.seen (before ++ after)).filter Cell.isFenced =
      (segmentLines s.inside start s.seen before).filter Cell.isFenced ++
        (segmentLines none (start + byteLength (s.seen.reverse ++ before).flatten) [] after).filter Cell.isFenced := by
  induction before generalizing s start with
  | nil =>
    have hinside : s.inside = none := h
    rw [hinside, List.nil_append, fenced_segmentLines_seen, segmentLines, fenced_stretchCells_none, List.append_nil,
      List.nil_append]
  | cons line before ih =>
    have hafter : (s.next line).after before = s.after (line :: before) := rfl
    have hrest := fun start => ih (s.next line) start (by rw [hafter]; exact h)
    rw [List.cons_append, segmentLines, segmentLines]
    cases hline : crossing? s.inside line with
    | some next =>
      have hplace : start + byteLength s.seen.reverse.flatten + byteLength line + byteLength before.flatten =
          start + byteLength (s.seen.reverse ++ line :: before).flatten := by
        simp only [List.flatten_append, List.flatten_cons, byteLength_append]
        omega
      simp only [Scan.next, hline, List.reverse_nil, List.nil_append] at hrest
      simp only [List.filter_append, hrest, List.append_assoc, hplace]
    | none =>
      have hplace : (line :: s.seen).reverse ++ before = s.seen.reverse ++ line :: before := by simp
      simp only [Scan.next, hline, hplace] at hrest
      exact hrest start

/-! ## Documents that close their fences -/

/-- Whether every line that opens a fence is followed by one that closes it. -/
def ClosesFences (text : List Char) : Prop :=
  ∀ before line after fence, splitLines text = before ++ line :: after → (Scan.start.after before).inside = none →
    openedFence? line = some fence → ∃ closing ∈ after, fence.isClosedBy closing = true

namespace Scan

theorem after_append (s : Scan) (before after : List (List Char)) :
    s.after (before ++ after) = (s.after before).after after :=
  List.foldl_append

/-- A fence that no line closes stays open. -/
theorem inside_after_of_not_closed {fence : Fence} (h : ∀ line ∈ lines, fence.isClosedBy line = false)
    (seen : List (List Char)) : (after ⟨some fence, seen⟩ lines).inside = some fence := by
  induction lines generalizing seen with
  | nil => rfl
  | cons line lines ih =>
    obtain ⟨hline, hlines⟩ := List.forall_mem_cons.mp h
    have hnext : next ⟨some fence, seen⟩ line = ⟨some fence, line :: seen⟩ := by simp [next, crossing?, hline]
    rw [after, List.foldl_cons, hnext]
    exact ih hlines (line :: seen)

/-- The fence that is open after some lines was opened by one of them, and not closed since. -/
theorem exists_opened {fence : Fence} (h : (Scan.start.after lines).inside = some fence) : ∃ before line after,
    lines = before ++ line :: after ∧ (Scan.start.after before).inside = none ∧ openedFence? line = some fence ∧
      ∀ other ∈ after, fence.isClosedBy other = false := by
  induction lines using List.reverseRecOn with
  | nil => cases h
  | append_singleton lines line ih =>
    have hnext : Scan.start.after (lines ++ [line]) = (Scan.start.after lines).next line := after_append _ _ _
    rw [hnext] at h
    cases hinside : (Scan.start.after lines).inside with
    | none =>
      -- the last line opened it
      refine ⟨lines, line, [], rfl, hinside, ?_, by simp⟩
      cases hopen : openedFence? line with
      | none => simp [next, hinside, crossing?, hopen] at h
      | some other => simpa [next, hinside, crossing?, hopen] using h
    | some other =>
      cases hclosed : other.isClosedBy line with
      | true => simp [next, hinside, crossing?, hclosed] at h
      | false =>
        have hother : other = fence := by simpa [next, hinside, crossing?, hclosed] using h
        obtain ⟨before, opening, after, hlines, hbefore, hopening, hafter⟩ := ih (by rw [hinside, hother])
        refine ⟨before, opening, after ++ [line], by simp [hlines], hbefore, hopening, ?_⟩
        intro l hl
        rcases List.mem_append.mp hl with hl | hl
        · exact hafter l hl
        · rw [List.mem_singleton.mp hl, ← hother]
          exact hclosed

end Scan

/-- Fences are closed if none is open after the last line. -/
theorem inside_after_eq_none_iff : (Scan.start.after (splitLines text)).inside = none ↔ ClosesFences text := by
  constructor
  · intro hnone before line after fence hlines hinside hopens
    by_contra hclosing
    have hopen : ∀ other ∈ after, fence.isClosedBy other = false := by
      intro other hother
      exact Bool.eq_false_iff.mpr fun hcloses => hclosing ⟨other, hother, hcloses⟩
    have hnext : (Scan.start.after before).next line = ⟨some fence, []⟩ := by
      simp [Scan.next, hinside, crossing?, hopens]
    have hafter : Scan.start.after (before ++ line :: after) = Scan.after ⟨some fence, []⟩ after := by
      rw [Scan.after_append, ← hnext]
      rfl
    rw [hlines, hafter, Scan.inside_after_of_not_closed hopen] at hnone
    cases hnone
  · intro hcloses
    cases hinside : (Scan.start.after (splitLines text)).inside with
    | none => rfl
    | some fence =>
      obtain ⟨before, line, after, hlines, hbefore, hopens, hafter⟩ := Scan.exists_opened hinside
      obtain ⟨closing, hmem, hclosing⟩ := hcloses before line after fence hlines hbefore hopens
      rw [hafter closing hmem] at hclosing
      cases hclosing

instance (text : List Char) : Decidable (ClosesFences text) := decidable_of_iff _ inside_after_eq_none_iff

/-- The cells between fences of a document that goes on are its own and, further on, those of what follows. -/
theorem fenced_segment_append {first : List Char} (hended : first = [] ∨ first.getLast? = some '\n')
    (hclosed : ClosesFences first) (second : List Char) :
    (segment (first ++ second)).filter Cell.isFenced =
      (segment first).filter Cell.isFenced ++
        ((segment second).filter Cell.isFenced).map (Cell.shift (byteLength first)) := by
  have hnone := inside_after_eq_none_iff.mpr hclosed
  have hcells := fenced_segmentLines_append Scan.start 0 (splitLines first) (splitLines second) hnone
  have hplace : (Scan.start.seen.reverse ++ splitLines first).flatten = first := flatten_splitLines first
  have hshift : Cell.isFenced ∘ Cell.shift (byteLength first) = Cell.isFenced := rfl
  rw [hplace, segmentLines_add, List.filter_map, hshift] at hcells
  rw [segment, splitLines_append hended]
  exact hcells

/-- A script cell stood between fences. -/
theorem filter_isScriptCell (config : Configuration) (cells : List Cell) :
    cells.filter (isScriptCell config) = (cells.filter Cell.isFenced).filter (isScriptCell config) := by
  rw [List.filter_filter]
  refine List.filter_congr fun c _ => ?_
  cases hkind : c.kind <;> simp [isScriptCell, Cell.isFenced, hkind]

/-- A document that ends with a line and closes its fences may go on: the script cells are its own, then those of what
follows, and so are all cells between fences, those of what follows as many bytes further on as the document has. -/
theorem scriptCells_append (config : Configuration) {p : Path} (hp : isNotebook p = false) {first : String}
    (hended : first = "" ∨ first.toList.getLast? = some '\n') (hclosed : ClosesFences first.toList) (second : String) :
    scriptCells config p (first ++ second) = scriptCells config p first ++ scriptCells config p second ∧
      (cells p (first ++ second)).filter Cell.isFenced =
        (cells p first).filter Cell.isFenced ++
          ((cells p second).filter Cell.isFenced).map (Cell.shift (byteLength first.toList)) := by
  have hcells : ∀ text, cells p text = segment text.toList := fun text => by simp [cells, hp]
  have hended' : first.toList = [] ∨ first.toList.getLast? = some '\n' := by
    rcases hended with rfl | h
    · exact Or.inl rfl
    · exact Or.inr h
  have hfenced := fenced_segment_append hended' hclosed second.toList
  have hscript : isScriptCell config ∘ Cell.shift (byteLength first.toList) = isScriptCell config := rfl
  refine ⟨?_, by simpa only [hcells, String.toList_append] using hfenced⟩
  simp only [scriptCells, hcells, String.toList_append]
  rw [filter_isScriptCell, hfenced, List.filter_append, ← filter_isScriptCell, List.filter_map, hscript,
    ← filter_isScriptCell, List.map_append, List.map_map]
  rfl

namespace Continued

/-- Code with a line in it that would open a fence, and text behind it. -/
def first : String := "é\n\x60\x60\x60{ojs}\n~~~\n\x60\x60\x60\nso\n"

/-- The text goes on, and a fence follows that is never closed. -/
def second : String := "far\n~~~ OJS\nb\n"

/-- The script cells of both are those of each, the last one 23 bytes further on. -/
theorem scriptCells_continued :
    (isNotebook ⟨"page.qmd"⟩ = false ∧ first.toList.getLast? = some '\n' ∧ ClosesFences first.toList) ∧
      scriptCells {} ⟨"page.qmd"⟩ (first ++ second) = ["~~~\n", "b\n"] ∧
      (cells ⟨"page.qmd"⟩ (first ++ second)).filter Cell.isFenced =
        [⟨.code, "ojs", "~~~\n".toList, 12, 16⟩, ⟨.code, "ojs", "b\n".toList, 35, 37⟩] := by
  have hp : isNotebook ⟨"page.qmd"⟩ = false := by decide +kernel
  have hended : first.toList.getLast? = some '\n' := by decide +kernel
  have hclosed : ClosesFences first.toList := by decide +kernel
  obtain ⟨hscript, hfenced⟩ := scriptCells_append {} hp (Or.inr hended) hclosed second
  refine ⟨⟨hp, hended, hclosed⟩, ?_, ?_⟩
  · rw [hscript]
    decide +kernel
  · rw [hfenced]
    decide +kernel

end Continued

end CellGraph.Document
