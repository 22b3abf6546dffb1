import CellGraph.Proofs.Stretches
import Mathlib.Data.List.Infix
import Mathlib.Data.Option.Basic

/-!
# Documents that are written block by block

A document is written from blocks: `Prose`, text outside of fences, and `Fenced`, a text between two fences with the
language of its code. A fence of a block is longer than any run of its mark in the text between (`longestRun`), so
nothing closes it before its end (`Fenced.not_isClosedBy`), and the lines of prose open none. What is read from it are
these blocks again, at the places where they were written (`segment_written`).
-/

namespace CellGraph

/-! ## Lines of a text that goes on -/

namespace Text

/-- A line that ends is the first of a text that begins with it. -/
theorem splitLines_line {line : List Char} (h : '\n' ∉ line) (rest : List Char) :
    splitLines (line ++ '\n' :: rest) = (line ++ ['\n']) :: splitLines rest := by
  induction line with
  | nil => simp [splitLines]
  | cons c cs ih =>
    have hc : c ≠ '\n' := fun e => h (e ▸ List.mem_cons_self)
    have hcs : '\n' ∉ cs := fun e => h (List.mem_cons_of_mem _ e)
    rw [List.cons_append, splitLines, if_neg hc, ih hcs]
    rfl

/-- A text that ends with a line does not share it with what follows. -/
theorem splitLines_append {text : List Char} (h : text = [] ∨ text.getLast? = some '\n') (rest : List Char) :
    splitLines (text ++ rest) = splitLines text ++ splitLines rest := by
  induction text with
  | nil => rfl
  | cons c cs ih =>
    by_cases hc : c = '\n'
    · have hcs : cs = [] ∨ cs.getLast? = some '\n' := by
        cases cs with
        | nil => exact Or.inl rfl
        | cons d ds => exact Or.inr (by simpa using h)
      simp [splitLines, hc, ih hcs]
    · cases cs with
      | nil => simp [hc] at h
      | cons d ds =>
        have hcs : d :: ds = [] ∨ (d :: ds).getLast? = some '\n' := Or.inr (by simpa using h)
        cases hsplit : splitLines (d :: ds) with
        | nil =>
          have := flatten_splitLines (d :: ds)
          rw [hsplit] at this
          cases this
        | cons line lines =>
          have := ih hcs
          rw [hsplit] at this
          rw [List.cons_append, splitLines, if_neg hc, this, splitLines, if_neg hc, hsplit]
          rfl

theorem dropEndWhile_append_singleton (p : Char → Bool) (text : List Char) (c : Char) :
    dropEndWhile p (text ++ [c]) = if p c then dropEndWhile p text else text ++ [c] := by
  unfold dropEndWhile
  cases hc : p c <;> simp [hc]

/-- How often a character stands in a row in a text, at most. -/
def longestRun (mark : Char) : List Char → Nat
  | [] => 0
  | c :: cs => max ((c :: cs).takeWhile (· == mark)).length (longestRun mark cs)

/-- No part of a text begins with a longer run. -/
theorem length_takeWhile_le_longestRun {mark : Char} {part text : List Char} (h : part <:+: text) :
    (part.takeWhile (· == mark)).length ≤ longestRun mark text := by
  obtain ⟨before, after, rfl⟩ := h
  rw [List.append_assoc]
  induction before with
  | nil =>
    have hle : (part.takeWhile (· == mark)).length ≤ ((part ++ after).takeWhile (· == mark)).length := by
      rw [List.takeWhile_append]
      split
      next hall => simp [hall]
      next => exact Nat.le_refl _
    refine Nat.le_trans hle ?_
    cases part ++ after with
    | nil => exact Nat.le_refl _
    | cons c cs => exact Nat.le_max_left _ _
  | cons c cs ih => exact Nat.le_trans ih (Nat.le_max_right _ _)

/-! ## Lower case -/

/-- A character of the name of a language in lower case. -/
def isLowerNameChar (c : Char) : Bool := c.isLower || c.isDigit || c == '_' || c == '+' || c == '-'

variable {c : Char} {name : List Char}

theorem toNat_of_isLowerNameChar (h : isLowerNameChar c = true) :
    97 ≤ c.toNat ∧ c.toNat ≤ 122 ∨ 48 ≤ c.toNat ∧ c.toNat ≤ 57 ∨ c.toNat = 95 ∨ c.toNat = 43 ∨ c.toNat = 45 := by
  have hrange : c.isLower = (decide (c.val ≥ 97) && decide (c.val ≤ 122)) := rfl
  have hlower : c.isLower = true ↔ 97 ≤ c.toNat ∧ c.toNat ≤ 122 := by
    simp [hrange, UInt32.le_iff_toNat_le, ← Char.toNat_val]
  have hdigit : c.isDigit = true ↔ 48 ≤ c.toNat ∧ c.toNat ≤ 57 := by
    simp [Char.isDigit, UInt32.le_iff_toNat_le, ← Char.toNat_val]
  simp only [isLowerNameChar, Bool.or_eq_true, beq_iff_eq, hlower, hdigit] at h
  rcases h with (((h | h) | rfl) | rfl) | rfl
  · exact Or.inl h
  · exact Or.inr (Or.inl h)
  all_goals decide

theorem lowerChar_of_isLowerNameChar (h : isLowerNameChar c = true) : lowerChar c = c := by
  have hnumber := toNat_of_isLowerNameChar h
  have hcapital : ¬ (c.val ≥ 'A'.val ∧ c.val ≤ 'Z'.val) := by
    simp only [ge_iff_le, UInt32.le_iff_toNat_le, Char.toNat_val]
    have ha : 'A'.toNat = 65 := rfl
    have hz : 'Z'.toNat = 90 := rfl
    omega
  rw [lowerChar, if_pos (by omega)]
  exact dif_neg hcapital

/-- A name in lower case is its own lower-case form. -/
theorem lowerCase_eq_self (h : ∀ c ∈ name, isLowerNameChar c = true) : lowerCase name = name := by
  -- what stands before matters for a capital sigma only, and there is none
  have hafter : ∀ before, lowerAfter before name = name := by
    induction name with
    | nil => intro before; rfl
    | cons c cs ih =>
      intro before
      obtain ⟨hc, hcs⟩ := List.forall_mem_cons.mp h
      have hnumber := toNat_of_isLowerNameChar hc
      have hdotted : (c.toNat == 0x130) = false := by simp; omega
      have hsigma : (c.toNat == 0x3A3) = false := by simp; omega
      rw [lowerAfter, hdotted, hsigma, lowerChar_of_isLowerNameChar hc, ih hcs]
      rfl
  exact hafter []

theorem isBlank_of_isLowerNameChar (h : isLowerNameChar c = true) : isBlank c = false := by
  have hnumber := toNat_of_isLowerNameChar h
  simp only [isBlank, Bool.or_eq_false_iff, Bool.and_eq_false_iff, decide_eq_false_iff_not, beq_eq_false_iff_ne]
  omega

theorem beq_eq_false_of_isLowerNameChar {d : Char} (h : isLowerNameChar c = true) (hd : isLowerNameChar d = false) :
    (c == d) = false := by
  rw [beq_eq_false_iff_ne]
  rintro rfl
  rw [h] at hd
  cases hd

end Text

namespace Document

open Text

/-! ## The lines of a fence -/

section Lines

variable {mark : Char} {name : List Char} {n m : Nat}

theorem lineText_append_singleton {c : Char} (hfeed : c ≠ '\n') (hreturn : c ≠ '\r') (text : List Char) :
    lineText (text ++ [c] ++ ['\n']) = text ++ [c] := by
  rw [lineText, dropEndWhile_append_singleton, if_pos (by decide), dropEndWhile_append_singleton,
    if_neg (by simp [hfeed, hreturn])]

theorem afterIndent?_cons {c : Char} (h : c ≠ ' ') (text : List Char) :
    afterIndent? (c :: text) = some (c :: text) := by
  simp [afterIndent?, h]

theorem takeWhile_replicate_append {rest : List Char} (h : rest.head? ≠ some mark) (n : Nat) :
    (List.replicate n mark ++ rest).takeWhile (· == mark) = List.replicate n mark := by
  rw [List.takeWhile_append_of_pos (by simp)]
  cases rest with
  | nil => simp
  | cons c cs => simp_all

theorem dropWhile_replicate_append {rest : List Char} (h : rest.head? ≠ some mark) (n : Nat) :
    (List.replicate n mark ++ rest).dropWhile (· == mark) = rest := by
  rw [List.dropWhile_append_of_pos (by simp)]
  cases rest with
  | nil => simp
  | cons c cs => simp_all

theorem isLanguageChar_of_isLowerNameChar {c : Char} (h : isLowerNameChar c = true) : isLanguageChar c = true := by
  have hletter : c.isAlphanum = (c.isUpper || c.isLower || c.isDigit) := rfl
  simp only [isLowerNameChar, isLanguageChar, hletter, Bool.or_eq_true] at h ⊢
  tauto

/-- A name in braces is the language of code. -/
theorem classify_name (hne : name ≠ []) (h : ∀ c ∈ name, isLowerNameChar c = true) :
    classify ('{' :: name ++ ['}']) = (.code, .ofList name) := by
  have htake : (name ++ ['}']).takeWhile isLanguageChar = name := by
    rw [List.takeWhile_append_of_pos fun c hc => isLanguageChar_of_isLowerNameChar (h c hc)]
    simp [isLanguageChar]
  have hdrop : (name ++ ['}']).dropWhile isLanguageChar = ['}'] := by
    rw [List.dropWhile_append_of_pos fun c hc => isLanguageChar_of_isLowerNameChar (h c hc)]
    rfl
  obtain ⟨c, cs, rfl⟩ := List.exists_cons_of_ne_nil hne
  have hc := h c List.mem_cons_self
  have hequals : (c == '=') = false := beq_eq_false_of_isLowerNameChar hc (by decide)
  have hdot : (c == '.') = false := beq_eq_false_of_isLowerNameChar hc (by decide)
  have hmarked : (c :: cs ++ ['}']).dropWhile isBlank = c :: cs ++ ['}'] := by
    simp [isBlank_of_isLowerNameChar hc]
  have hname : dropChar '.' (dropChar '=' (c :: cs ++ ['}'])) = c :: cs ++ ['}'] := by
    simp [dropChar, hequals, hdot]
  have hlanguage : languageAt (c :: cs ++ ['}']) = .ofList (c :: cs) := by
    rw [languageAt, htake, lowerCase_eq_self h]
  simp only [List.cons_append, classify] at hmarked hname hlanguage hdrop ⊢
  rw [hmarked, hname, hdrop, hlanguage]
  simp [isLanguageChar_of_isLowerNameChar hc, hequals]

/-- The line that opens a fence with the name of a language in braces. -/
theorem openedFence?_name (hmark : mark = '\x60' ∨ mark = '~') (hn : 3 ≤ n) (hne : name ≠ [])
    (h : ∀ c ∈ name, isLowerNameChar c = true) :
    openedFence? (List.replicate n mark ++ '{' :: name ++ ['}', '\n']) = some ⟨mark, n, .code, .ofList name⟩ := by
  obtain ⟨k, rfl⟩ : ∃ k, n = k + 1 := ⟨n - 1, by omega⟩
  have hspace : mark ≠ ' ' := by rcases hmark with rfl | rfl <;> decide
  have hbrace : ('{' :: name ++ ['}']).head? ≠ some mark := by rcases hmark with rfl | rfl <;> simp
  have htext : lineText (List.replicate (k + 1) mark ++ '{' :: name ++ ['}', '\n']) =
      List.replicate (k + 1) mark ++ ('{' :: name ++ ['}']) := by
    have hbracket : '}' ≠ '\n' ∧ '}' ≠ '\r' := by decide
    simpa using lineText_append_singleton hbracket.1 hbracket.2 (List.replicate (k + 1) mark ++ '{' :: name)
  have hindent : afterIndent? (List.replicate (k + 1) mark ++ ('{' :: name ++ ['}'])) =
      some (List.replicate (k + 1) mark ++ ('{' :: name ++ ['}'])) := afterIndent?_cons hspace _
  have htrim : trim ('{' :: name ++ ['}']) = '{' :: name ++ ['}'] := by
    have hstart : ('{' :: name ++ ['}']).dropWhile isBlank = '{' :: name ++ ['}'] := by
      rw [List.cons_append, List.dropWhile_cons_of_neg (by decide)]
    rw [trim, hstart, dropEndWhile_append_singleton, if_neg (by decide)]
  have hplain : ('{' :: name ++ ['}']).contains '\x60' = false := by
    have hname : '\x60' ∉ name := fun hmem => absurd (h _ hmem) (by decide)
    simp [hname]
  have hhead : (List.replicate (k + 1) mark ++ ('{' :: name ++ ['}'])).head? = some mark := rfl
  rw [openedFence?, htext, hindent]
  simp only [bind, Option.bind, hhead, takeWhile_replicate_append hbrace, dropWhile_replicate_append hbrace, htrim,
    hplain, classify_name hne h, List.length_replicate, Bool.and_false, Bool.not_false, Bool.and_true]
  rcases hmark with rfl | rfl <;> simp [guard, hn, pure]

/-- A line of its mark that is long enough closes a fence. -/
theorem isClosedBy_replicate {fence : Fence} (hmark : fence.mark = '\x60' ∨ fence.mark = '~') (hpos : 0 < m)
    (hle : fence.length ≤ m) : fence.isClosedBy (List.replicate m fence.mark ++ ['\n']) = true := by
  obtain ⟨k, rfl⟩ : ∃ k, m = k + 1 := ⟨m - 1, by omega⟩
  have hmarks : fence.mark ≠ ' ' ∧ fence.mark ≠ '\n' ∧ fence.mark ≠ '\r' := by
    rcases hmark with h | h <;> rw [h] <;> decide
  obtain ⟨hspace, hfeed, hreturn⟩ := hmarks
  have htext : lineText (List.replicate (k + 1) fence.mark ++ ['\n']) = List.replicate (k + 1) fence.mark := by
    rw [List.replicate_succ']
    exact lineText_append_singleton hfeed hreturn _
  have hindent : afterIndent? (List.replicate (k + 1) fence.mark) = some (List.replicate (k + 1) fence.mark) :=
    afterIndent?_cons hspace _
  rw [Fence.isClosedBy, htext, hindent]
  simp [isAllBlank, hle]

/-- A text with a line that closes a fence has a run of its mark that is as long. -/
theorem length_le_longestRun {fence : Fence} {line text : List Char} (hline : line ∈ splitLines text)
    (h : fence.isClosedBy line = true) : fence.length ≤ longestRun fence.mark text := by
  unfold Fence.isClosedBy at h
  split at h
  case h_2 => cases h
  case h_1 part hpart =>
    rw [Bool.and_eq_true, decide_eq_true_eq] at h
    have hwithin : part <:+: line := by
      unfold afterIndent? at hpart
      split at hpart
      case isFalse => cases hpart
      case isTrue =>
        cases hpart
        have hprefix : lineText line <+: line := by
          have hsuffix : line.reverse.dropWhile (fun c => c == '\n' || c == '\r') <:+ line.reverse :=
            List.dropWhile_suffix _
          simpa [lineText, dropEndWhile] using hsuffix.reverse
        exact (List.dropWhile_suffix _).isInfix.trans hprefix.isInfix
    have htext : line <:+: text := by
      have hflatten := List.infix_of_mem_flatten hline
      rwa [flatten_splitLines] at hflatten
    exact Nat.le_trans h.1 (length_takeWhile_le_longestRun (hwithin.trans htext))

end Lines

/-! ## Blocks -/

/-- A text outside of fences. -/
structure Prose where
  text : List Char
  ended : text.getLast? = some '\n'
  notBlank : isAllBlank text = false
  plain : ∀ line ∈ splitLines text, openedFence? line = none

/-- A text between fences, with their mark, their lengths and the language. -/
structure Fenced where
  mark : Char
  opening : Nat
  closing : Nat
  language : String
  body : List Char
  isMark : mark = '\x60' ∨ mark = '~'
  three_le : 3 ≤ opening
  opening_le : opening ≤ closing
  language_ne : language ≠ ""
  isLower : ∀ c ∈ language.toList, isLowerNameChar c = true
  ended : body = [] ∨ body.getLast? = some '\n'
  run_lt : longestRun mark body < opening

namespace Fenced

/-- The line that opens the fence. -/
def openingLine (f : Fenced) : List Char := List.replicate f.opening f.mark ++ '{' :: f.language.toList ++ ['}', '\n']

/-- The line that closes it. -/
def closingLine (f : Fenced) : List Char := List.replicate f.closing f.mark ++ ['\n']

/-- What is written for it. -/
def text (f : Fenced) : List Char := f.openingLine ++ f.body ++ f.closingLine

/-- The fence that is open between these lines. -/
def fence (f : Fenced) : Fence := ⟨f.mark, f.opening, .code, f.language⟩

variable (f : Fenced)

theorem openedFence?_openingLine : openedFence? f.openingLine = some f.fence := by
  have hne : f.language.toList ≠ [] := fun h => f.language_ne (String.toList_eq_nil_iff.mp h)
  rw [openingLine, openedFence?_name f.isMark f.three_le hne f.isLower, String.ofList_toList]
  rfl

theorem isClosedBy_closingLine : f.fence.isClosedBy f.closingLine = true := by
  have hthree := f.three_le
  have hle := f.opening_le
  exact isClosedBy_replicate f.isMark (by omega) hle

/-- Nothing in the text between closes the fence. -/
theorem not_isClosedBy {line : List Char} (h : line ∈ splitLines f.body) : f.fence.isClosedBy line = false := by
  rw [Bool.eq_false_iff]
  intro hcloses
  have hrun := f.run_lt
  have hle : f.opening ≤ longestRun f.mark f.body := length_le_longestRun h hcloses
  omega

theorem splitLines_text (rest : List Char) :
    splitLines (f.text ++ rest) = f.openingLine :: (splitLines f.body ++ f.closingLine :: splitLines rest) := by
  have hmark : f.mark ≠ '\n' := by rcases f.isMark with h | h <;> rw [h] <;> decide
  have hlanguage : '\n' ∉ f.language.toList := fun hmem => absurd (f.isLower _ hmem) (by decide)
  have hopening : '\n' ∉ List.replicate f.opening f.mark ++ '{' :: f.language.toList ++ ['}'] := by
    simp [hmark.symm, hlanguage]
  have hclosing : '\n' ∉ List.replicate f.closing f.mark := by simp [hmark.symm]
  have htext : f.text ++ rest = (List.replicate f.opening f.mark ++ '{' :: f.language.toList ++ ['}']) ++
      '\n' :: (f.body ++ (List.replicate f.closing f.mark ++ '\n' :: rest)) := by
    simp [text, openingLine, closingLine]
  rw [htext, splitLines_line hopening, splitLines_append f.ended, splitLines_line hclosing]
  simp [openingLine, closingLine]

end Fenced

/-- A block of a document. -/
inductive Block
  | prose (p : Prose)
  | fenced (f : Fenced)

namespace Block

/-- Whether a block is outside of fences. -/
def isProse : Block → Bool
  | prose _ => true
  | fenced _ => false

/-- What is written for a block. -/
def text : Block → List Char
  | prose p => p.text
  | fenced f => f.text

/-- The cell that a block is, if it is written at a place. -/
def cell (start : Nat) : Block → Cell
  | prose p => markdownCell p.text start
  | fenced f => .ofText .code f.language f.body (start + byteLength f.openingLine)

end Block

/-- What is written for blocks. -/
def written (blocks : List Block) : List Char := blocks.flatMap Block.text

/-- The cells that blocks are, if they are written from a place on. -/
def cellsFrom (start : Nat) : List Block → List Cell
  | [] => []
  | block :: blocks => block.cell start :: cellsFrom (start + byteLength block.text) blocks

/-! ## Reading what is written -/

/-- Before a line that opens a fence, and at the end, a stretch is over. -/
theorem segmentLines_of_opens {lines : List (List Char)} (h : ∀ line ∈ lines.head?, (openedFence? line).isSome = true)
    (start : Nat) (seen : List (List Char)) :
    segmentLines none start seen lines = stretchCells none start seen.reverse.flatten ++
      segmentLines none (start + byteLength seen.reverse.flatten) [] lines := by
  have hnil : ∀ place, stretchCells none place [] = [] := fun place => stretchCells_eq_nil_iff.mpr ⟨rfl, rfl⟩
  cases lines with
  | nil => simp [segmentLines, hnil]
  | cons line lines =>
    obtain ⟨fence, hfence⟩ := Option.isSome_iff_exists.mp (h line rfl)
    simp [segmentLines, crossing?, hfence, hnil, byteLength]

/-- A text between fences is a cell. -/
theorem segmentLines_fenced (f : Fenced) (start : Nat) (rest : List Char) :
    segmentLines none start [] (splitLines (f.text ++ rest)) =
      (Block.fenced f).cell start :: segmentLines none (start + byteLength f.text) [] (splitLines rest) := by
  have hopen : crossing? none f.openingLine = some (some f.fence) := by
    rw [crossing?, f.openedFence?_openingLine]
    rfl
  have hbody : ∀ line ∈ splitLines f.body, crossing? (some f.fence) line = none := fun line hline => by
    rw [crossing?, f.not_isClosedBy hline]
    rfl
  have hclose : crossing? (some f.fence) f.closingLine = some none := by
    rw [crossing?, f.isClosedBy_closingLine]
    rfl
  have hnil : stretchCells none start [].reverse.flatten = [] := stretchCells_eq_nil_iff.mpr ⟨rfl, rfl⟩
  have hlines : ((splitLines f.body).reverse ++ []).reverse.flatten = f.body := by
    rw [List.append_nil, List.reverse_reverse, flatten_splitLines]
  have hplace : start + byteLength f.text =
      start + byteLength f.openingLine + byteLength f.body + byteLength f.closingLine := by
    simp only [Fenced.text, byteLength_append]
    omega
  rw [f.splitLines_text, segmentLines, hopen]
  simp only [hnil, List.nil_append]
  rw [segmentLines_append hbody, segmentLines, hclose, hlines, hplace]
  rfl

/-- A text outside of fences is a cell if a fence or nothing follows. -/
theorem segmentLines_prose (p : Prose) (start : Nat) {rest : List Char}
    (h : ∀ line ∈ (splitLines rest).head?, (openedFence? line).isSome = true) :
    segmentLines none start [] (splitLines (p.text ++ rest)) =
      (Block.prose p).cell start :: segmentLines none (start + byteLength p.text) [] (splitLines rest) := by
  have hlines : ∀ line ∈ splitLines p.text, crossing? none line = none := fun line hline => by
    rw [crossing?, p.plain line hline]
    rfl
  have htext : ((splitLines p.text).reverse ++ []).reverse.flatten = p.text := by
    rw [List.append_nil, List.reverse_reverse, flatten_splitLines]
  have hcell : stretchCells none start p.text = [markdownCell p.text start] := by simp [stretchCells, p.notBlank]
  rw [splitLines_append (Or.inr p.ended), segmentLines_append hlines, segmentLines_of_opens h, htext, hcell]
  rfl

variable {blocks : List Block}

/-- Reading written blocks gives the cells that they are. -/
theorem segmentLines_written (h : blocks.IsChain fun a b => ¬ (a.isProse = true ∧ b.isProse = true)) (start : Nat) :
    segmentLines none start [] (splitLines (written blocks)) = cellsFrom start blocks := by
  induction blocks generalizing start with
  | nil => rfl
  | cons block blocks ih =>
    have hcells := ih h.of_cons (start + byteLength block.text)
    cases block with
    | fenced f =>
      rw [written, List.flatMap_cons, cellsFrom, ← hcells]
      exact segmentLines_fenced f start (written blocks)
    | prose p =>
      -- the next block is no prose, so its first line ends this one
      have hopens : ∀ line ∈ (splitLines (written blocks)).head?, (openedFence? line).isSome = true := by
        cases blocks with
        | nil => simp [written, splitLines]
        | cons next blocks =>
          cases next with
          | prose q => exact absurd ⟨rfl, rfl⟩ (List.isChain_cons_cons.mp h).1
          | fenced f =>
            intro line hline
            have hfirst : splitLines (written (.fenced f :: blocks)) = _ := f.splitLines_text (written blocks)
            rw [hfirst, List.head?_cons, Option.mem_some_iff] at hline
            rw [← hline, f.openedFence?_openingLine]
            rfl
      rw [written, List.flatMap_cons, cellsFrom, ← hcells]
      exact segmentLines_prose p start hopens

/-- The cells of a document that is written from blocks, no two in a row outside of fences, are these blocks, each with
its language and text, and at its place. -/
theorem segment_written (h : blocks.IsChain fun a b => ¬ (a.isProse = true ∧ b.isProse = true)) :
    segment (written blocks) = cellsFrom 0 blocks :=
  segmentLines_written h 0

namespace Nested

def note : Prose where
  text := "é\n\n~~\n".toList
  ended := by decide +kernel
  notBlank := by decide +kernel
  plain := by decide +kernel

/-- Code with a shorter fence, and one of the other mark, in it. -/
def outer : Fenced where
  mark := '\x60'
  opening := 4
  closing := 5
  language := "ojs"
  body := "\x60\x60\x60\n\n ~~~~~~\n".toList
  isMark := Or.inl rfl
  three_le := by decide
  opening_le := by decide
  language_ne := by simp
  isLower := List.all_eq_true.mp (by decide +kernel)
  ended := Or.inr (by decide +kernel)
  run_lt := by decide +kernel

/-- A fence with nothing in it. -/
def empty : Fenced where
  mark := '~'
  opening := 3
  closing := 3
  language := "c++"
  body := []
  isMark := Or.inr rfl
  three_le := by decide
  opening_le := by decide
  language_ne := by simp
  isLower := List.all_eq_true.mp (by decide +kernel)
  ended := Or.inl rfl
  run_lt := by decide

def page : List Block := [.prose note, .fenced outer, .fenced empty, .prose note]

/-- The fences within the code are part of it. -/
theorem segment_nested :
    (page.IsChain fun a b => ¬ (a.isProse = true ∧ b.isProse = true)) ∧
      segment (written page) = [
        ⟨.markdown, "markdown", note.text, 0, 7⟩,
        ⟨.code, "ojs", outer.body, 17, 30⟩,
        ⟨.code, "c++", [], 45, 45⟩,
        ⟨.markdown, "markdown", note.text, 49, 56⟩] := by
  have hchain : page.IsChain fun a b => ¬ (a.isProse = true ∧ b.isProse = true) := by
    simp [page, Block.isProse]
  exact ⟨hchain, (segment_written hchain).trans (by decide +kernel)⟩

end Nested

end Document

end CellGraph
