import CellGraph.Proofs.Matches
import CellGraph.Script.CellNotation
import Mathlib.Data.List.Chain
import Mathlib.Data.List.Infix

/-!
# The parts of a script

A script is written from parts: literals in quotes, comments, single slashes, and code between them (`Part`), where each
may stand behind the one before (`Part.MayPrecede`). A literal or a comment is passed over as a whole
(`afterVerbatim?_written`), and what may stand behind code ends it (`endsCode_written`).
-/

namespace CellGraph.Script

open Text

/-! ## Parts of a script -/

/-- A quote of a string or of a template. -/
def isQuote (c : Char) : Bool := c == '"' || c == '\'' || c == '\x60'

/-- A character of code: no quote and no slash. -/
def isPlain (c : Char) : Bool := !isQuote c && c != '/'

/-- What may stand between quotes: no quote and no backslash but with a character that it takes along, which is no line
feed; and other line feeds in templates only. -/
inductive Quotable (quote : Char) : List Char → Prop
  | nil : Quotable quote []
  | char {c : Char} {cs : List Char} (notQuote : c ≠ quote) (notEscape : c ≠ '\\') (inLine : c = '\n' → quote = '\x60')
      (rest : Quotable quote cs) : Quotable quote (c :: cs)
  | escape {c : Char} {cs : List Char} (inLine : c ≠ '\n') (rest : Quotable quote cs) : Quotable quote ('\\' :: c :: cs)

/-- A string or a template. -/
structure Literal where
  quote : Char
  body : List Char
  isQuote : isQuote quote = true
  quotable : Quotable quote body

/-- A comment between two marks. -/
structure BlockComment where
  body : List Char
  unclosed : ¬ ['*', '/'] <:+: body

/-- A comment to the end of its line. -/
structure LineComment where
  body : List Char
  inLine : '\n' ∉ body

/-- Code without literals, comments and slashes. -/
structure Code where
  text : List Char
  ne_nil : text ≠ []
  plain : ∀ c ∈ text, isPlain c = true

/-- A part of a script. -/
inductive Part
  | literal (l : Literal)
  | blockComment (b : BlockComment)
  | lineComment (l : LineComment)
  /-- A slash that starts no comment. -/
  | slash
  | code (c : Code)

namespace Part

/-- What is written for a part. -/
def text : Part → List Char
  | literal l => l.quote :: l.body ++ [l.quote]
  | blockComment b => '/' :: '*' :: b.body ++ ['*', '/']
  | lineComment l => '/' :: '/' :: l.body
  | slash => ['/']
  | code c => c.text

/-- What may stand behind a part: after a comment to the end of its line a line feed, after a slash nothing that makes a
comment of it, and after code no more code. -/
def MayPrecede : Part → Part → Prop
  | lineComment _, next => next.text.head? = some '\n'
  | slash, next => next.text.head? ≠ some '/' ∧ next.text.head? ≠ some '*'
  | code _, code _ => False
  | _, _ => True

/-- A part with the cell prefixes dropped, as if it stood alone: literals and comments stay as they are. -/
def withoutPrefixes : Part → List Char
  | code c => dropCellPrefixes c.text
  | part => part.text

theorem text_ne_nil (part : Part) : part.text ≠ [] := by
  cases part with
  | code c => exact c.ne_nil
  | _ => simp [text]

end Part

/-- What is written for parts. -/
def written (parts : List Part) : List Char := parts.flatMap Part.text

variable {before : Option Char} {text rest : List Char} {c : Char}

theorem head?_written_cons (part : Part) (parts : List Part) : (written (part :: parts)).head? = part.text.head? := by
  obtain ⟨c, cs, h⟩ := List.exists_cons_of_ne_nil part.text_ne_nil
  rw [written, List.flatMap_cons, h]
  rfl

/-! ## Literals and comments -/

theorem isQuote_iff : isQuote c = true ↔ c = '"' ∨ c = '\'' ∨ c = '\x60' := by simp [isQuote, or_assoc]

theorem isQuote_double : isQuote '"' = true := rfl

theorem isQuote_backtick : isQuote '\x60' = true := rfl

theorem ne_of_isQuote {quote other : Char} (h : isQuote quote = true) (hother : isQuote other = false) :
    quote ≠ other := by
  rintro rfl
  rw [h] at hother
  cases hother

/-- What is between quotes is passed over to the closing one. -/
theorem afterQuoted?_append {quote : Char} {body : List Char} (hquote : isQuote quote = true) (h : Quotable quote body)
    (rest : List Char) : afterQuoted? quote (body ++ quote :: rest) = some rest := by
  have hescape : quote ≠ '\\' := ne_of_isQuote hquote (by decide)
  induction h with
  | nil => simp [afterQuoted?, hescape]
  | @char c cs hc hslash hline _ ih =>
    have hfeed : (c == '\n' && quote != '\x60') = false := by
      by_cases hc : c = '\n'
      · simp [hline hc]
      · simp [hc]
    rw [List.cons_append, afterQuoted?]
    · simp [hc, hslash, hfeed, ih]
    · intro d ds heq
      exact absurd heq hslash
  | escape hc _ ih => simp [afterQuoted?, hc, ih]

/-- And nothing else is: a text that ends with the first quote that closes it is one between quotes. -/
theorem quotable_of_afterQuoted? {quote : Char} (hquote : isQuote quote = true) {body : List Char}
    (h : afterQuoted? quote (body ++ [quote]) = some []) : Quotable quote body := by
  have hescape : quote ≠ '\\' := ne_of_isQuote hquote (by decide)
  induction hlength : body.length using Nat.strong_induction_on generalizing body with
  | h n ih =>
    subst hlength
    cases body with
    | nil => exact .nil
    | cons c cs =>
      by_cases hc : c = '\\'
      · subst hc
        cases cs with
        | nil => simp [afterQuoted?] at h
        | cons d ds =>
          by_cases hd : d = '\n'
          · simp [afterQuoted?, hd] at h
          · simp only [List.cons_append, afterQuoted?, beq_iff_eq, hd, if_false] at h
            exact .escape hd (ih ds.length (by simp only [List.length_cons]; omega) h rfl)
      · rw [List.cons_append, afterQuoted?] at h
        · split at h
          case isTrue => simp at h
          case isFalse hend =>
            split at h
            case isTrue => cases h
            case isFalse hline =>
              simp only [hc, beq_iff_eq, bne_iff_ne, Bool.or_eq_true, Bool.and_eq_true, false_or, not_and,
                not_not] at hend hline
              exact .char hend hc hline (ih cs.length (Nat.lt_succ_self _) h rfl)
        · intro d ds heq
          exact absurd heq hc

/-- A comment is passed over to the first mark that closes it. -/
theorem afterBlockComment?_append {body : List Char} (h : ¬ ['*', '/'] <:+: body) (rest : List Char) :
    afterBlockComment? (body ++ '*' :: '/' :: rest) = some rest := by
  induction body with
  | nil => rfl
  | cons c cs ih =>
    have hcs : ¬ ['*', '/'] <:+: cs := fun hpart => h (hpart.trans (List.suffix_cons c cs).isInfix)
    rw [List.cons_append, afterBlockComment?]
    · exact ih hcs
    · rintro d rfl hd
      cases cs with
      | nil => cases hd
      | cons e es =>
        cases hd
        exact h (List.IsPrefix.isInfix ⟨es, rfl⟩)

/-- Whether a part is a literal or a comment. -/
def Part.isVerbatim : Part → Bool
  | literal _ => true
  | blockComment _ => true
  | lineComment _ => true
  | slash => false
  | code _ => false

/-- A literal or a comment is passed over as a whole. -/
theorem afterVerbatim?_written {part : Part} {parts : List Part} (h : part.isVerbatim = true)
    (hnext : ∀ next ∈ parts.head?, part.MayPrecede next) :
    afterVerbatim? (part.text ++ written parts) = some (written parts) := by
  cases part with
  | literal l =>
    obtain ⟨quote, body, hquote, hbody⟩ := l
    have hslash : quote ≠ '/' := ne_of_isQuote hquote (by decide)
    have hclosed := afterQuoted?_append hquote hbody (written parts)
    have hquotes : (quote == '"' || quote == '\'' || quote == '\x60') = true := hquote
    have htext : (Part.literal ⟨quote, body, hquote, hbody⟩).text ++ written parts =
        quote :: (body ++ quote :: written parts) := by simp [Part.text]
    rw [htext, afterVerbatim?, if_pos hquotes, hclosed]
    · intro cs heq
      exact absurd heq hslash
    · intro cs heq
      exact absurd heq hslash
  | blockComment b =>
    have hclosed := afterBlockComment?_append b.unclosed (written parts)
    have htext : (Part.blockComment b).text ++ written parts =
        '/' :: '*' :: (b.body ++ '*' :: '/' :: written parts) := by
      simp [Part.text]
    rw [htext, afterVerbatim?, hclosed]
  | lineComment l =>
    have hbody : ∀ c ∈ l.body, (c != '\n') = true := by
      intro c hc
      simpa using fun e : c = '\n' => l.inLine (e ▸ hc)
    have hrest : (written parts).dropWhile (· != '\n') = written parts := by
      cases parts with
      | nil => rfl
      | cons next parts =>
        have hfeed : next.text.head? = some '\n' := hnext next rfl
        rw [← head?_written_cons next parts] at hfeed
        obtain ⟨cs, hcs⟩ := List.head?_eq_some_iff.mp hfeed
        rw [hcs]
        rfl
    have htext : (Part.lineComment l).text ++ written parts = '/' :: '/' :: (l.body ++ written parts) := rfl
    rw [htext, afterVerbatim?, List.dropWhile_append_of_pos hbody, hrest]
  | slash => cases h
  | code c => cases h

/-! ## Code -/

theorem isPlain_eq_false_iff : isPlain c = false ↔ c = '"' ∨ c = '\'' ∨ c = '\x60' ∨ c = '/' := by
  cases h : isQuote c with
  | true => simpa [isPlain, h] using (isQuote_iff.mp h).imp_right (Or.imp_right Or.inl)
  | false =>
    have hquotes := mt isQuote_iff.mpr (Bool.eq_false_iff.mp h)
    simp only [not_or] at hquotes
    simp [isPlain, h, hquotes]

theorem afterVerbatim?_of_isPlain (h : isPlain c = true) (text : List Char) : afterVerbatim? (c :: text) = none := by
  simp only [isPlain, Bool.and_eq_true, Bool.not_eq_true', bne_iff_ne, ne_eq] at h
  obtain ⟨hquote, hslash⟩ := h
  have hquotes : (c == '"' || c == '\'' || c == '\x60') = false := hquote
  rw [afterVerbatim?]
  · simp [hquotes]
  · intro cs heq
    exact absurd heq hslash
  · intro cs heq
    exact absurd heq hslash

/-- Whether a text is empty or begins with a quote or a slash: what may stand behind code. -/
def EndsCode (rest : List Char) : Prop := ∀ c ∈ rest.head?, isPlain c = false

/-- What may stand behind code ends it. -/
theorem endsCode_written {code : Code} {parts : List Part}
    (h : ∀ next ∈ parts.head?, (Part.code code).MayPrecede next) :
    EndsCode (written parts) := by
  cases parts with
  | nil => intro c hc; cases hc
  | cons next parts =>
    intro c hc
    rw [head?_written_cons, Option.mem_def] at hc
    cases next with
    | literal l =>
      cases hc
      rw [isPlain, l.isQuote]
      rfl
    | blockComment b => cases hc; decide
    | lineComment l => cases hc; decide
    | slash => cases hc; decide
    | code c => exact (h (.code c) rfl).elim

/-- Before code that may stand behind a part, a word can start. -/
theorem atWordStart_behind {part : Part} {code : Code} (h : part.MayPrecede (.code code)) (before : Option Char) :
    atWordStart (charBehind before part.text) = true ∨ code.text.head? = some '\n' := by
  cases part with
  | literal l =>
    rw [Part.text, charBehind_append_singleton]
    rcases isQuote_iff.mp l.isQuote with hquote | hquote | hquote <;> rw [hquote] <;> exact Or.inl (by decide)
  | blockComment b =>
    have htext : (Part.blockComment b).text = '/' :: '*' :: b.body ++ ['*'] ++ ['/'] := by simp [Part.text]
    rw [htext, charBehind_append_singleton]
    exact Or.inl (by decide)
  | lineComment l => exact Or.inr h
  | slash => exact Or.inl rfl
  | code c => cases h

end CellGraph.Script
