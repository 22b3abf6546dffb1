import CellGraph.Proofs.Lexical
import Mathlib.Data.Option.Basic

/-!
# Cell prefixes, part by part

A pattern that looks at code sees no further than to its end (`cellPrefix_append`), and literals and comments are
copied. So cell prefixes are dropped from each piece of code of a script as if it stood alone, and nothing else changes
(`substituteFrom_written`); in code, just those prefixes are dropped that `Without` describes (`without_iff`).
-/

namespace CellGraph.Script

open Text

variable {before : Option Char} {text rest : List Char} {c : Char}

/-! ## Literals, comments and slashes -/

/-- So a literal or a comment is copied. -/
theorem substituteFrom_cellPrefix_verbatim {part : Part} {parts : List Part} (h : part.isVerbatim = true)
    (hnext : ∀ next ∈ parts.head?, part.MayPrecede next) (before : Option Char) :
    substituteFrom cellPrefix before 0 (part.text ++ written parts) =
      part.text ++ substituteFrom cellPrefix (charBehind before part.text) 0 (written parts) := by
  refine substituteFrom_of_match part.text_ne_nil ?_
  rw [cellPrefix, afterVerbatim?_written h hnext]
  simp

theorem cellPrefix_slash {parts : List Part} (hnext : ∀ next ∈ parts.head?, Part.slash.MayPrecede next)
    (before : Option Char) : cellPrefix before ('/' :: written parts) = none := by
  have hverbatim : afterVerbatim? ('/' :: written parts) = none := by
    cases parts with
    | nil => rfl
    | cons next parts =>
      have hhead := hnext next rfl
      rw [Part.MayPrecede, ← head?_written_cons next parts] at hhead
      cases hwritten : written (next :: parts) with
      | nil => rfl
      | cons c cs =>
        simp only [hwritten, List.head?_cons, ne_eq, Option.some.injEq] at hhead
        rw [afterVerbatim?]
        · rfl
        · rintro ds - heq
          exact hhead.1 (List.cons.inj heq).1
        · rintro ds - heq
          exact hhead.2 (List.cons.inj heq).1
  rw [cellPrefix, hverbatim]
  cases atWordStart before <;> rfl

/-! ## Code -/

namespace EndsCode

theorem not_isBlank (h : EndsCode (c :: rest)) : isBlank c = false := by
  rcases isPlain_eq_false_iff.mp (h c rfl) with rfl | rfl | rfl | rfl <;> decide

theorem not_isCellStart (h : EndsCode (c :: rest)) : isCellStart c = false := by
  rcases isPlain_eq_false_iff.mp (h c rfl) with rfl | rfl | rfl | rfl <;> decide

theorem dropWhile_isBlank (h : EndsCode rest) (text : List Char) :
    (text ++ rest).dropWhile isBlank = text.dropWhile isBlank ++ rest := by
  have hstop : rest.dropWhile isBlank = rest := by
    cases rest with
    | nil => rfl
    | cons c cs => simp [h.not_isBlank]
  rw [List.dropWhile_append, hstop]
  split
  next hempty => simp_all
  next => rfl

theorem afterSomeBlanks? (h : EndsCode rest) (text : List Char) :
    afterSomeBlanks? (text ++ rest) = (afterSomeBlanks? text).map (· ++ rest) := by
  cases text with
  | nil =>
    cases rest with
    | nil => rfl
    | cons c cs => simp [Script.afterSomeBlanks?, h.not_isBlank]
  | cons c cs =>
    cases hc : isBlank c with
    | true => simp [Script.afterSomeBlanks?, afterBlanks, hc, h.dropWhile_isBlank]
    | false => simp [Script.afterSomeBlanks?, hc]

theorem dropPrefix? (h : EndsCode rest) {keyword : List Char} (hkeyword : ∀ c ∈ keyword, isPlain c = true)
    (text : List Char) : dropPrefix? keyword (text ++ rest) = (dropPrefix? keyword text).map (· ++ rest) := by
  refine dropPrefix?_append (fun c hc hmem => ?_) text
  have hplain := hkeyword c hmem
  rw [h c hc] at hplain
  cases hplain

theorem afterCellPrefix? (h : EndsCode rest) (text : List Char) :
    afterCellPrefix? (text ++ rest) = (afterCellPrefix? text).map (· ++ rest) := by
  have hviewof := @dropPrefix? _ h "viewof".toList (List.all_eq_true.mp (by decide)) text
  have hmutable := @dropPrefix? _ h "mutable".toList (List.all_eq_true.mp (by decide)) text
  rw [Script.afterCellPrefix?, Script.afterCellPrefix?, hviewof, hmutable]
  cases Text.dropPrefix? "viewof".toList text with
  | some name => exact h.afterSomeBlanks? name
  | none =>
    cases Text.dropPrefix? "mutable".toList text with
    | some name => exact h.afterSomeBlanks? name
    | none => rfl

end EndsCode

/-- In code, a cell prefix is looked for no further than to the end of it. -/
theorem cellPrefix_append (hplain : ∀ c ∈ text, isPlain c = true) (hne : text ≠ []) (hrest : EndsCode rest)
    (before : Option Char) : cellPrefix before (text ++ rest) = cellPrefix before text := by
  obtain ⟨c, cs, rfl⟩ := List.exists_cons_of_ne_nil hne
  have hc := afterVerbatim?_of_isPlain (hplain c List.mem_cons_self)
  rw [cellPrefix, cellPrefix, List.cons_append, hc, hc, ← List.cons_append, hrest.afterCellPrefix?]
  cases atWordStart before with
  | false => rfl
  | true =>
    cases afterCellPrefix? (c :: cs) with
    | none => rfl
    | some name =>
      cases name with
      | cons d ds =>
        show (if isCellStart d then some (Match.upTo (c :: cs ++ rest) (ds ++ rest) [d]) else none) = _
        rw [upTo_append_append]
        rfl
      | nil =>
        cases rest with
        | nil => rfl
        | cons d ds => simp [hrest.not_isCellStart]

theorem extra_lt_of_cellPrefix {m : Match} (hne : text ≠ []) (h : cellPrefix before text = some m) :
    m.extra < text.length := by
  obtain ⟨part, replacement, rfl⟩ : ∃ part replacement, m = .upTo text part replacement := by
    unfold cellPrefix at h
    split at h
    · exact ⟨_, _, (Option.some.inj h).symm⟩
    · simp only [Option.bind_eq_bind, Option.bind_eq_some_iff] at h
      obtain ⟨-, -, name, -, h⟩ := h
      split at h
      · split at h
        · exact ⟨_, _, (Option.some.inj h).symm⟩
        · cases h
      · cases h
  have hpos := List.length_pos_iff.mpr hne
  simp only [Match.upTo]
  omega

/-- So the prefixes of a piece of code are dropped as if it were not followed by anything. -/
theorem substituteFrom_cellPrefix_code (c : Code) (hrest : EndsCode rest) (before : Option Char) :
    substituteFrom cellPrefix before 0 (c.text ++ rest) =
      substituteFrom cellPrefix before 0 c.text ++ substituteFrom cellPrefix (charBehind before c.text) 0 rest := by
  refine substituteFrom_append (fun before part hpart hne => ?_) (fun before part m hpart h => ?_) (Nat.zero_le _)
  · exact cellPrefix_append (fun d hd => c.plain d (hpart.subset hd)) hne hrest before
  · refine extra_lt_of_cellPrefix ?_ h
    rintro rfl
    cases hstart : atWordStart before <;> simp [cellPrefix, afterVerbatim?, hstart, afterCellPrefix?, dropPrefix?] at h

/-- The character before a text matters only if it is a word character and a keyword follows it. -/
theorem substituteFrom_cellPrefix_before (h : atWordStart before = true ∨ text.head? = some '\n') :
    substituteFrom cellPrefix before 0 text = dropCellPrefixes text := by
  cases text with
  | nil => rfl
  | cons c cs =>
    have hmatch : cellPrefix before (c :: cs) = cellPrefix none (c :: cs) := by
      rcases h with hstart | hfeed
      · have hnone : atWordStart none = true := rfl
        simp only [cellPrefix, hstart, hnone]
      · obtain rfl : c = '\n' := by simpa using hfeed
        simp [cellPrefix, afterVerbatim?, afterCellPrefix?, dropPrefix?]
    rw [dropCellPrefixes, substitute, substituteFrom, substituteFrom, hmatch]

/-! ## Scripts -/

theorem substituteFrom_written {parts : List Part} (h : parts.IsChain Part.MayPrecede)
    (hbefore : ∀ code ∈ parts.head?, ∀ c, code = .code c → atWordStart before = true ∨ c.text.head? = some '\n') :
    substituteFrom cellPrefix before 0 (written parts) = parts.flatMap Part.withoutPrefixes := by
  induction parts generalizing before with
  | nil => rfl
  | cons part parts ih =>
    obtain ⟨hnext, hparts⟩ := List.isChain_cons.mp h
    have hrest := @ih (charBehind before part.text) hparts fun next hmem c hc =>
      atWordStart_behind (hc ▸ hnext next hmem) before
    have hwritten : written (part :: parts) = part.text ++ written parts := rfl
    rw [List.flatMap_cons, ← hrest, hwritten]
    cases hverbatim : part.isVerbatim with
    | true =>
      have hpart : part.withoutPrefixes = part.text := by cases part <;> first | rfl | cases hverbatim
      rw [hpart]
      exact substituteFrom_cellPrefix_verbatim hverbatim hnext before
    | false =>
      cases part with
      | literal l => cases hverbatim
      | blockComment b => cases hverbatim
      | lineComment l => cases hverbatim
      | slash =>
        have hmatch := cellPrefix_slash hnext before
        show substituteFrom cellPrefix before 0 ('/' :: written parts) = _
        rw [substituteFrom, hmatch]
        rfl
      | code c =>
        have hcode := substituteFrom_cellPrefix_before (hbefore _ rfl c rfl)
        rw [Part.withoutPrefixes, ← hcode]
        exact substituteFrom_cellPrefix_code c (endsCode_written hnext) before

/-! ## Dropping prefixes from code -/

/-- A cell prefix: a keyword and blank characters. -/
def IsCellPrefix (front : List Char) : Prop :=
  ∃ keyword blanks, (keyword = "viewof".toList ∨ keyword = "mutable".toList) ∧ blanks ≠ [] ∧
    (∀ b ∈ blanks, isBlank b = true) ∧ front = keyword ++ blanks

/-- A text that begins with a cell prefix and the first character of a name. -/
def IsPrefixed (text : List Char) (first : Char) (rest : List Char) : Prop :=
  ∃ front, IsCellPrefix front ∧ isCellStart first = true ∧ text = front ++ first :: rest

/-- A text without its cell prefixes, given the character before it: from left to right, a prefix where a word can start
leaves the first character of the name, and any other character stays. -/
inductive Without : Option Char → List Char → List Char → Prop
  | nil (before : Option Char) : Without before [] []
  | kept {before : Option Char} {c : Char} {text out : List Char}
      (noPrefix : ∀ first rest, atWordStart before = true → ¬ IsPrefixed (c :: text) first rest)
      (tail : Without (some c) text out) : Without before (c :: text) (c :: out)
  | dropped {before : Option Char} {text : List Char} {first : Char} {rest out : List Char}
      (atStart : atWordStart before = true) (isPrefixed : IsPrefixed text first rest)
      (tail : Without (some first) rest out) : Without before text (first :: out)

theorem isPlain_of_isBlank (h : isBlank c = true) : isPlain c = true := by
  by_contra hplain
  rcases isPlain_eq_false_iff.mp (Bool.eq_false_iff.mpr hplain) with rfl | rfl | rfl | rfl <;> revert h <;> decide

namespace IsCellPrefix

variable {front : List Char}

theorem plain (h : IsCellPrefix front) : ∀ c ∈ front, isPlain c = true := by
  obtain ⟨keyword, blanks, hkeyword, -, hblanks, rfl⟩ := h
  refine List.forall_mem_append.mpr ⟨?_, fun c hc => isPlain_of_isBlank (hblanks c hc)⟩
  rcases hkeyword with rfl | rfl <;> exact List.all_eq_true.mp (by decide)

/-- It begins with a letter. -/
theorem exists_cons (h : IsCellPrefix front) : ∃ c cs, front = c :: cs ∧ isCellStart c = true := by
  obtain ⟨keyword, blanks, hkeyword, -, -, rfl⟩ := h
  rcases hkeyword with rfl | rfl
  · exact ⟨'v', "iewof".toList ++ blanks, rfl, by decide⟩
  · exact ⟨'m', "utable".toList ++ blanks, rfl, by decide⟩

end IsCellPrefix

namespace IsPrefixed

variable {first : Char}

theorem suffix (h : IsPrefixed text first rest) : rest <:+ text := by
  obtain ⟨front, -, -, rfl⟩ := h
  exact ⟨front ++ [first], by simp⟩

theorem length_lt (h : IsPrefixed text first rest) : rest.length < text.length := by
  obtain ⟨front, -, -, rfl⟩ := h
  simp only [List.length_append, List.length_cons]
  omega

end IsPrefixed

theorem isAlpha_iff : c.isAlpha = true ↔ 65 ≤ c.toNat ∧ c.toNat ≤ 90 ∨ 97 ≤ c.toNat ∧ c.toNat ≤ 122 := by
  have hranges : c.isAlpha =
      (decide (c.val ≥ 65 ∧ c.val ≤ 90) || decide (c.val ≥ 97) && decide (c.val ≤ 122)) := rfl
  simp [hranges, UInt32.le_iff_toNat_le, ← Char.toNat_val]

theorem not_isBlank_of_isCellStart (h : isCellStart c = true) : isBlank c = false := by
  have hnumber : 65 ≤ c.toNat ∧ c.toNat ≤ 122 ∨ c.toNat = 36 := by
    simp only [isCellStart, Bool.or_eq_true, isAlpha_iff, beq_iff_eq] at h
    rcases h with (h | rfl) | rfl
    · omega
    · decide
    · decide
  simp only [isBlank, Bool.or_eq_false_iff, Bool.and_eq_false_iff, decide_eq_false_iff_not, beq_eq_false_iff_ne]
  omega

theorem afterBlanks_append {blanks : List Char} (h : ∀ b ∈ blanks, isBlank b = true) (hc : isBlank c = false)
    (rest : List Char) : afterBlanks (blanks ++ c :: rest) = c :: rest := by
  rw [afterBlanks, List.dropWhile_append_of_pos h, List.dropWhile_cons_of_neg (by simp [hc])]

theorem exists_of_afterBlanks (h : afterBlanks text = rest) :
    ∃ blanks, (∀ b ∈ blanks, isBlank b = true) ∧ text = blanks ++ rest := by
  refine ⟨text.takeWhile isBlank, List.all_eq_true.mp List.all_takeWhile, ?_⟩
  rw [← h, afterBlanks, List.takeWhile_append_dropWhile]

/-- What follows a cell prefix, up to a character that is not blank. -/
theorem afterCellPrefix?_append_cons {front : List Char} (hfront : IsCellPrefix front) (hc : isBlank c = false)
    (rest : List Char) : afterCellPrefix? (front ++ c :: rest) = some (c :: rest) := by
  obtain ⟨keyword, blanks, hkeyword, hne, hblanks, rfl⟩ := hfront
  have hafter : afterSomeBlanks? (blanks ++ c :: rest) = some (c :: rest) := by
    obtain ⟨b, bs, rfl⟩ := List.exists_cons_of_ne_nil hne
    obtain ⟨hb, hbs⟩ := List.forall_mem_cons.mp hblanks
    rw [List.cons_append, afterSomeBlanks?, if_pos hb, afterBlanks_append hbs hc]
  rw [List.append_assoc]
  rcases hkeyword with rfl | rfl
  · rw [afterCellPrefix?, dropPrefix?_eq_some_iff.mpr rfl]
    exact hafter
  · have hother : dropPrefix? "viewof".toList ("mutable".toList ++ (blanks ++ c :: rest)) = none := rfl
    rw [afterCellPrefix?, hother, dropPrefix?_eq_some_iff.mpr rfl]
    exact hafter

theorem exists_of_afterSomeBlanks? (h : afterSomeBlanks? text = some rest) :
    ∃ blanks, blanks ≠ [] ∧ (∀ b ∈ blanks, isBlank b = true) ∧ text = blanks ++ rest := by
  cases text with
  | nil => cases h
  | cons b bs =>
    rw [afterSomeBlanks?] at h
    split at h
    case isTrue hb =>
      obtain ⟨blanks, hblanks, rfl⟩ := exists_of_afterBlanks (Option.some.inj h)
      exact ⟨b :: blanks, List.cons_ne_nil _ _, List.forall_mem_cons.mpr ⟨hb, hblanks⟩, rfl⟩
    case isFalse => cases h

theorem exists_of_afterCellPrefix? (h : afterCellPrefix? text = some rest) :
    ∃ front, IsCellPrefix front ∧ text = front ++ rest := by
  unfold afterCellPrefix? at h
  cases hviewof : dropPrefix? "viewof".toList text with
  | some behind =>
    rw [hviewof] at h
    obtain ⟨blanks, hne, hblanks, rfl⟩ := exists_of_afterSomeBlanks? h
    exact ⟨_, ⟨_, blanks, Or.inl rfl, hne, hblanks, rfl⟩,
      by rw [dropPrefix?_eq_some_iff.mp hviewof, List.append_assoc]⟩
  | none =>
    cases hmutable : dropPrefix? "mutable".toList text with
    | some behind =>
      rw [hviewof, hmutable] at h
      obtain ⟨blanks, hne, hblanks, rfl⟩ := exists_of_afterSomeBlanks? h
      exact ⟨_, ⟨_, blanks, Or.inr rfl, hne, hblanks, rfl⟩,
        by rw [dropPrefix?_eq_some_iff.mp hmutable, List.append_assoc]⟩
    | none =>
      rw [hviewof, hmutable] at h
      cases h

/-- Where a word can start, a prefix is found. -/
theorem cellPrefix_of_isPrefixed {first : Char} (hstart : atWordStart before = true) (h : IsPrefixed text first rest) :
    cellPrefix before text = some (.upTo text rest [first]) := by
  obtain ⟨front, hfront, hfirst, rfl⟩ := h
  have hname := afterCellPrefix?_append_cons hfront (not_isBlank_of_isCellStart hfirst) rest
  have hverbatim : afterVerbatim? (front ++ first :: rest) = none := by
    obtain ⟨c, cs, rfl, -⟩ := hfront.exists_cons
    exact afterVerbatim?_of_isPlain (hfront.plain c List.mem_cons_self) _
  have hguard : (guard (atWordStart before) : Option Unit) = some () := (Option.guard_eq_some' _).mpr hstart
  rw [cellPrefix, hverbatim, hguard, hname]
  simp [hfirst]

/-- What is found in code is a prefix, where a word can start. -/
theorem isPrefixed_of_cellPrefix {m : Match} (hplain : ∀ c ∈ text, isPlain c = true)
    (h : cellPrefix before text = some m) :
    atWordStart before = true ∧ ∃ first rest, IsPrefixed text first rest ∧ m = .upTo text rest [first] := by
  have hverbatim : afterVerbatim? text = none := by
    cases text with
    | nil => rfl
    | cons c cs => exact afterVerbatim?_of_isPlain (hplain c List.mem_cons_self) cs
  rw [cellPrefix, hverbatim] at h
  simp only [Option.bind_eq_bind, Option.bind_eq_some_iff] at h
  obtain ⟨_, hguard, name, hname, h⟩ := h
  have hstart : atWordStart before = true := (Option.guard_eq_some' _).mp hguard
  cases name with
  | nil => cases h
  | cons first rest =>
    simp only [] at h
    split at h
    case isFalse => cases h
    case isTrue hfirst =>
      obtain ⟨front, hfront, htext⟩ := exists_of_afterCellPrefix? hname
      exact ⟨hstart, first, rest, ⟨front, hfront, hfirst, htext⟩, (Option.some.inj h).symm⟩

theorem cellPrefix_eq_none_iff (hplain : ∀ c ∈ text, isPlain c = true) :
    cellPrefix before text = none ↔ ∀ first rest, atWordStart before = true → ¬ IsPrefixed text first rest := by
  constructor
  · intro hnone first rest hstart hprefixed
    rw [cellPrefix_of_isPrefixed hstart hprefixed] at hnone
    cases hnone
  · intro hnone
    by_contra hsome
    obtain ⟨m, hm⟩ := Option.ne_none_iff_exists'.mp hsome
    obtain ⟨hstart, first, rest, hprefixed, -⟩ := isPrefixed_of_cellPrefix hplain hm
    exact hnone first rest hstart hprefixed

/-- A prefix that is found is replaced by the first character of the name. -/
theorem substituteFrom_of_isPrefixed {first : Char} (hstart : atWordStart before = true)
    (h : IsPrefixed text first rest) :
    substituteFrom cellPrefix before 0 text = first :: substituteFrom cellPrefix (some first) 0 rest := by
  have hmatch := cellPrefix_of_isPrefixed hstart h
  obtain ⟨front, -, -, rfl⟩ := h
  have htext : front ++ first :: rest = front ++ [first] ++ rest := by simp
  rw [htext] at hmatch ⊢
  rw [substituteFrom_of_match (by simp) hmatch, charBehind_append_singleton]
  rfl

/-- In code, just the cell prefixes are dropped. -/
theorem without_iff (hplain : ∀ c ∈ text, isPlain c = true) {out : List Char} :
    Without before text out ↔ out = substituteFrom cellPrefix before 0 text := by
  constructor
  · intro h
    induction h with
    | nil before => rfl
    | kept hnone _ ih =>
      obtain ⟨-, htext⟩ := List.forall_mem_cons.mp hplain
      rw [substituteFrom, (cellPrefix_eq_none_iff hplain).mpr hnone, ih htext]
    | dropped hstart hprefixed _ ih =>
      rw [substituteFrom_of_isPrefixed hstart hprefixed, ih fun c hc => hplain c (hprefixed.suffix.subset hc)]
  · rintro rfl
    -- the text gets shorter, by a character or by a prefix
    induction hlength : text.length using Nat.strong_induction_on generalizing before text with
    | h n ih =>
      subst hlength
      cases text with
      | nil => exact .nil before
      | cons c cs =>
        cases hmatch : cellPrefix before (c :: cs) with
        | none =>
          have hcs : ∀ d ∈ cs, isPlain d = true := fun d hd => hplain d (List.mem_cons_of_mem _ hd)
          rw [substituteFrom, hmatch]
          exact .kept ((cellPrefix_eq_none_iff hplain).mp hmatch) (ih cs.length (Nat.lt_succ_self _) hcs rfl)
        | some m =>
          obtain ⟨hstart, first, rest, hprefixed, -⟩ := isPrefixed_of_cellPrefix hplain hmatch
          have hrest : ∀ d ∈ rest, isPlain d = true := fun d hd => hplain d (hprefixed.suffix.subset hd)
          rw [substituteFrom_of_isPrefixed hstart hprefixed]
          exact .dropped hstart hprefixed (ih rest.length hprefixed.length_lt hrest rfl)

/-- The cell prefixes of a script are dropped part by part: literals and comments stay as they are, and of each piece of
code is left what is left of it alone, the code without just its cell prefixes. -/
theorem dropCellPrefixes_written {parts : List Part} (h : parts.IsChain Part.MayPrecede) :
    dropCellPrefixes (written parts) = parts.flatMap Part.withoutPrefixes ∧
      ∀ (code : Code) (out : List Char), Without none code.text out ↔ out = (Part.code code).withoutPrefixes := by
  refine ⟨substituteFrom_written h fun _ _ _ _ => Or.inl rfl, fun code out => ?_⟩
  exact without_iff code.plain

namespace Mingled

/-- A string with an escaped quote in it. -/
def string : Literal := ⟨'"', "viewof \\\"a".toList, isQuote_double, quotable_of_afterQuoted? rfl (by decide +kernel)⟩

/-- A template of two lines with quotes of the other kinds in it. -/
def template : Literal :=
  ⟨'\x60', "'\n\"mutable b".toList, isQuote_backtick, quotable_of_afterQuoted? rfl (by decide +kernel)⟩

/-- Prefixes in code, next to literals and comments, one right behind the other, and incomplete at the end of code. -/
def parts : List Part := [
  .code ⟨"viewof x = mutable ".toList, by simp, List.all_eq_true.mp (by decide +kernel)⟩,
  .literal string,
  .literal template,
  .code ⟨"viewof viewof y".toList, by simp, List.all_eq_true.mp (by decide +kernel)⟩,
  .slash,
  .code ⟨"mutable z".toList, by simp, List.all_eq_true.mp (by decide +kernel)⟩,
  .blockComment ⟨"* // \" viewof c".toList, by decide +kernel⟩,
  .lineComment ⟨"/* mutable d '".toList, by decide +kernel⟩,
  .code ⟨"\nmutable\u2003$e".toList, by simp, List.all_eq_true.mp (by decide +kernel)⟩]

/-- Four prefixes are dropped. The keyword before the string has no name, and the second of the two in a row has lost
its first character to the match before. -/
theorem dropCellPrefixes_mingled :
    parts.IsChain Part.MayPrecede ∧ dropCellPrefixes (written parts) =
    "x = mutable \"viewof \\\"a\"\x60'\n\"mutable b\x60viewof y/z/** // \" viewof c*////* mutable d '\n$e".toList := by
  have hchain : parts.IsChain Part.MayPrecede := by
    simp [parts, Part.MayPrecede, Part.text, string]
  exact ⟨hchain, (dropCellPrefixes_written hchain).1.trans (by decide +kernel)⟩

end Mingled

end CellGraph.Script
