import CellGraph.Json.Printer
import CellGraph.Proofs.Verbatim
import CellGraph.Script.Literal

/-!
# Names in quotes

A name in quotes is written character by character (`Spelling`). Nothing in it ends the literal (`quotable_escaped`),
and what is written is read back as the name (`stringBody?_escaped`). A brace stands only for a brace
(`exists_of_escaped_eq`), so that an import with an injection takes whole characters out of a name
(`exists_without_injections`).
-/

namespace CellGraph.Script

open Text

variable {c : Char} {text rest : List Char}

/-- A text as it is written between quotes. -/
def escaped (text : List Char) : List Char := text.flatMap Json.quotedChar

/-- The letters that stand behind a backslash for a character, and what they stand for. -/
def letterEscapes : List (Char × Char) :=
  [('"', '"'), ('\\', '\\'), ('n', '\n'), ('r', '\r'), ('t', '\t'), ('b', '\x08'), ('f', '\x0c')]

/-- How a character is written between quotes: as it is, by a letter behind a backslash, or by its number. -/
inductive Spelling : Char → List Char → Prop
  | plain {c : Char} (notQuote : c ≠ '"') (notEscape : c ≠ '\\') (shown : 32 ≤ c.toNat) : Spelling c [c]
  | letter {letter c : Char} (h : (letter, c) ∈ letterEscapes) : Spelling c ['\\', letter]
  | number {n : Nat} (h : n < 32) :
      Spelling (Char.ofNat n) ['\\', 'u', '0', '0', hexDigit (n / 16), hexDigit (n % 16)]

theorem spelling_quotedChar (c : Char) : Spelling c (Json.quotedChar c) := by
  unfold Json.quotedChar
  split
  case h_8 hquote hescape _ _ _ _ _ =>
    split
    case isTrue h =>
      have hnumber := Spelling.number h
      rwa [Char.ofNat_toNat] at hnumber
    case isFalse h => exact .plain hquote hescape (Nat.le_of_not_lt h)
  all_goals exact .letter (by decide)

namespace Spelling

/-- Only a brace is written with a brace. -/
theorem eq_brace (h : Spelling c text) (hmem : '}' ∈ text) : c = '}' := by
  cases h with
  | plain => exact (List.mem_singleton.mp hmem).symm
  | @letter letter c h =>
    have hletters : ∀ p ∈ letterEscapes, '}' ∉ ['\\', p.1] := by decide
    exact absurd hmem (hletters _ h)
  | number h =>
    have hdigits : ∀ n < 32, '}' ∉ ['\\', 'u', '0', '0', hexDigit (n / 16), hexDigit (n % 16)] := by decide
    exact absurd hmem (hdigits _ h)

theorem feed_not_mem (h : Spelling c text) : '\n' ∉ text := by
  cases h with
  | plain _ _ hshown =>
    rw [List.mem_singleton]
    rintro rfl
    revert hshown
    decide
  | @letter letter c h =>
    have hletters : ∀ p ∈ letterEscapes, '\n' ∉ ['\\', p.1] := by decide
    exact hletters _ h
  | @number n h =>
    have hdigits : ∀ n < 32, '\n' ∉ ['\\', 'u', '0', '0', hexDigit (n / 16), hexDigit (n % 16)] := by decide
    exact hdigits n h

theorem quotable (h : Spelling c text) (hrest : Quotable '"' rest) : Quotable '"' (text ++ rest) := by
  cases h with
  | plain hquote hescape hshown =>
    refine .char hquote hescape ?_ hrest
    rintro rfl
    revert hshown
    decide
  | @letter letter c h =>
    have hletters : ∀ p ∈ letterEscapes, p.1 ≠ '\n' := by decide
    exact .escape (hletters _ h) hrest
  | @number n h =>
    have hdigits : ∀ n < 32, ['0', '0', hexDigit (n / 16), hexDigit (n % 16)].all
        (fun d => d != '"' && d != '\\' && d != '\n') = true := by decide
    have hplain : ∀ digits : List Char, digits.all (fun d => d != '"' && d != '\\' && d != '\n') = true →
        Quotable '"' (digits ++ rest) := by
      intro digits hall
      induction digits with
      | nil => exact hrest
      | cons d ds ih =>
        simp only [List.all_cons, Bool.and_eq_true, bne_iff_ne] at hall
        obtain ⟨⟨⟨hquote, hescape⟩, hline⟩, hds⟩ := hall
        exact .char hquote hescape (fun hd => absurd hd hline) (ih hds)
    exact .escape (by decide) (hplain _ (hdigits n h))

/-- What is written for a character is read back as the character. -/
theorem stringBody? (h : Spelling c text) (rest : List Char) : Script.stringBody? '"' 0 (text ++ rest) =
    (Script.stringBody? '"' 0 rest).map fun (pieces, behind) => (.char c :: pieces, behind) := by
  cases h with
  | plain hquote hescape hshown =>
    have hfeed : c ≠ '\n' := by rintro rfl; revert hshown; decide
    have hreturn : c ≠ '\r' := by rintro rfl; revert hshown; decide
    simp [Script.stringBody?, hquote, hescape, hfeed, hreturn]
  | @letter letter c h =>
    have hread : escape? false (letter :: rest) = some ([.char c], 1) := by
      simp only [letterEscapes, List.mem_cons, Prod.mk.injEq, List.not_mem_nil, or_false] at h
      rcases h with ⟨rfl, rfl⟩ | ⟨rfl, rfl⟩ | ⟨rfl, rfl⟩ | ⟨rfl, rfl⟩ | ⟨rfl, rfl⟩ | ⟨rfl, rfl⟩ | ⟨rfl, rfl⟩ <;> rfl
    simp [Script.stringBody?, hread]
  | @number n h =>
    have hdigits : ∀ n < 32, hexNumber? ['0', '0', hexDigit (n / 16), hexDigit (n % 16)] = some n := by decide
    have hvalue : Piece.ofCode n .half = .char (Char.ofNat n) := by
      rw [Piece.ofCode, if_neg]
      simp only [Bool.and_eq_true, decide_eq_true_eq]
      omega
    have hcode : unicodeEscape? ('0' :: '0' :: hexDigit (n / 16) :: hexDigit (n % 16) :: rest) =
        some (.char (Char.ofNat n), 4) := by
      rw [unicodeEscape?, hdigits n h, Option.map_some, hvalue]
      rintro ⟨⟩
    simp [Script.stringBody?, escape?, hcode]

end Spelling

theorem stringBody?_escaped (text rest : List Char) :
    stringBody? '"' 0 (escaped text ++ '"' :: rest) = some (text.map .char, rest) := by
  induction text with
  | nil => rfl
  | cons c cs ih =>
    have hsplit : escaped (c :: cs) ++ '"' :: rest = Json.quotedChar c ++ (escaped cs ++ '"' :: rest) := by
      simp [escaped]
    rw [hsplit, (spelling_quotedChar c).stringBody?, ih]
    rfl

theorem quotable_escaped (text : List Char) : Quotable '"' (escaped text) := by
  induction text with
  | nil => exact .nil
  | cons c cs ih => exact (spelling_quotedChar c).quotable ih

theorem feed_not_mem_escaped (text : List Char) : '\n' ∉ escaped text := by
  simp only [escaped, List.mem_flatMap, not_exists, not_and]
  exact fun c _ => (spelling_quotedChar c).feed_not_mem

/-- A text without surrogates is the text of its characters. -/
theorem toString_map_char (text : List Char) : Piece.toString (text.map .char) = .ofList text := by
  have hjoin : Piece.join (text.map .char) = text.map .char := by
    induction text with
    | nil => rfl
    | cons c cs ih => simp [Piece.join, ih]
  have halone : (text.map Piece.char).any Piece.isAlone = false := by simp [Piece.isAlone]
  have hchars : (fun c => Piece.chars false (.char c)) = fun c => [c] := rfl
  simp only [Piece.toString, hjoin, halone, List.flatMap_map, hchars, List.flatMap_singleton']

/-- Where a brace stands in what is written, one stands in the text. -/
theorem exists_of_escaped_eq {tail a b : List Char} (htail : '}' ∉ tail) (h : escaped text ++ tail = a ++ '}' :: b) :
    ∃ front back, text = front ++ '}' :: back ∧ a = escaped front ∧ b = escaped back ++ tail := by
  induction text generalizing a with
  | nil =>
    have hmem : '}' ∈ tail := by
      rw [show tail = a ++ '}' :: b from h]
      simp
    exact absurd hmem htail
  | cons c cs ih =>
    have hsplit : escaped (c :: cs) ++ tail = Json.quotedChar c ++ (escaped cs ++ tail) := by simp [escaped]
    rw [hsplit] at h
    have hspelling := spelling_quotedChar c
    rcases List.append_eq_append_iff.mp h with ⟨a', rfl, hrest⟩ | ⟨w, hw, hrest⟩
    · obtain ⟨front, back, rfl, rfl, hb⟩ := ih hrest
      exact ⟨c :: front, back, rfl, by simp [escaped], hb⟩
    · cases w with
      | nil =>
        obtain ⟨front, back, rfl, hfront, hb⟩ := ih (a := []) hrest.symm
        refine ⟨c :: front, back, rfl, ?_, hb⟩
        have hnone : front.flatMap Json.quotedChar = [] := hfront.symm
        rw [List.append_nil] at hw
        simp [escaped, hw, hnone]
      | cons d ds =>
        obtain ⟨rfl, hb⟩ := List.cons.inj hrest
        obtain rfl : c = '}' := hspelling.eq_brace (by rw [hw]; simp)
        have hbrace : ['}'] = a ++ '}' :: ds := hw
        obtain ⟨rfl, rfl⟩ : a = [] ∧ ds = [] := by
          cases a with
          | nil => simpa using hbrace
          | cons => simp at hbrace
        exact ⟨[], cs, rfl, rfl, hb⟩

theorem escaped_append (a b : List Char) : escaped (a ++ b) = escaped a ++ escaped b := List.flatMap_append

theorem escaped_brace (text : List Char) : escaped ('}' :: text) = '}' :: escaped text := rfl

/-! ## Injections in a name -/

/-- Whether an import with an injection is found in a text, given the character before it. -/
def HasInjection (before : Option Char) (text : List Char) : Prop :=
  ∃ a head clause rest, text = a ++ (head ++ clause ++ rest) ∧ atWordStart (charBehind before a) = true ∧
    IsInjection head clause

theorem IsInjection.exists_clause {head clause : List Char} (h : IsInjection head clause) :
    ∃ inner, clause = '}' :: inner ++ ['}'] := by
  obtain ⟨b₁, names, b₂, b₃, cells, -, -, -, -, rfl⟩ := h
  exact ⟨b₂ ++ "with".toList ++ b₃ ++ '{' :: cells, by simp⟩

/-- What is left of a text without its injections: the text itself if there are none, and a shorter one otherwise. -/
theorem exists_without_injections {tail : List Char} (htail : '}' ∉ tail) (text : List Char) (before : Option Char) :
    ∃ out, substituteFrom importInjection before 0 (escaped text ++ tail) = escaped out ++ tail ∧
      (out = text ∧ ¬ HasInjection before (escaped text) ∨
        out.length < text.length ∧ HasInjection before (escaped text)) := by
  -- each match goes from one raw brace to another, so between two matches there are whole characters
  induction hlength : text.length using Nat.strong_induction_on generalizing before text with
  | h n ih =>
    subst hlength
    rcases substituteFrom_eq_or importInjection before (escaped text ++ tail) with
      ⟨hcopied, hnone⟩ | ⟨a, b, m, hab, -, hm, hsplit⟩
    · refine ⟨text, hcopied, Or.inl ⟨rfl, ?_⟩⟩
      rintro ⟨a, head, clause, rest, htext, hstart, hinjection⟩
      have hm := importInjection_eq_some_iff.mpr ⟨hstart, head, clause, rest ++ tail, hinjection, rfl, rfl⟩
      obtain ⟨inner, rfl⟩ := hinjection.exists_clause
      rw [hnone a _ (by rw [htext]; simp) (by simp)] at hm
      cases hm
    · obtain ⟨hstart, head, clause, rest, hinjection, rfl, rfl⟩ := importInjection_eq_some_iff.mp hm
      obtain ⟨inner, rfl⟩ := hinjection.exists_clause
      obtain ⟨front, back, rfl, hfront, hback⟩ :=
        exists_of_escaped_eq (a := a ++ head) (b := inner ++ '}' :: rest) htail
        (by rw [hab]; simp)
      obtain ⟨mid, last, rfl, rfl, rfl⟩ := exists_of_escaped_eq htail hback.symm
      obtain ⟨out, hrun, hout⟩ := ih last.length (by simp only [List.length_append, List.length_cons]; omega) last
        (charBehind (charBehind before a) (head ++ ('}' :: escaped mid ++ ['}']))) rfl
      refine ⟨front ++ '}' :: out, ?_, Or.inr ⟨?_, ?_⟩⟩
      · rw [hsplit, substituteFrom_of_match (by simp) hm, hrun, escaped_append, escaped_brace, ← hfront]
        simp
      · have hshorter : out.length ≤ last.length := by
          rcases hout with ⟨rfl, -⟩ | ⟨hlt, -⟩
          · exact Nat.le_refl _
          · exact Nat.le_of_lt hlt
        simp only [List.length_append, List.length_cons]
        omega
      · refine ⟨a, head, _, escaped last, ?_, hstart, hinjection⟩
        rw [escaped_append, escaped_brace, escaped_append, escaped_brace, ← hfront]
        simp

end CellGraph.Script
