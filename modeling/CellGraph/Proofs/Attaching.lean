import CellGraph.Configuration
import CellGraph.Proofs.Calls
import CellGraph.Proofs.Quoting

/-!
# Attaching a file by its name in quotes

The smallest script that attaches a file calls the attachment function with the name in quotes (`attaching`).
Normalizing it leaves a script of the same form, whose name has lost its injections (`exists_normalize_attaching`), and
what is attached is the name in the script that is left (`scriptReferences?_attaching`). So a name is attached as it is
just if there is no import with an injection in it (`verbatim_unless_found`).
-/

namespace CellGraph.Script

open Text

variable {c : Char} {text rest : List Char}

/-! ## A script that attaches a file -/

/-- What stands before the name. -/
def opening : List Char := "x = FileAttachment(".toList

/-- A script that attaches one file, by its name in quotes. -/
def attaching (name : String) : String := .ofList (opening ++ Json.quoted name ++ [')'])

/-- The parts of the script. -/
def attachingParts (name : List Char) : List Part := [
  .code ⟨opening, List.cons_ne_nil _ _, List.all_eq_true.mp (by decide +kernel)⟩,
  .literal ⟨'"', escaped name, isQuote_double, quotable_escaped name⟩,
  .code ⟨[')'], by simp, List.all_eq_true.mp (by decide +kernel)⟩]

theorem written_attachingParts (name : List Char) :
    written (attachingParts name) = opening ++ '"' :: escaped name ++ ['"', ')'] := by
  simp [written, attachingParts, Part.text]

theorem importInjection_of_dropPrefix? (h : dropPrefix? "import".toList text = none) (before : Option Char) :
    importInjection before text = none := by
  rw [importInjection, h]
  cases atWordStart before <;> rfl

theorem substitute_importInjection_opening (text : List Char) :
    substitute importInjection (opening ++ '"' :: text) =
      opening ++ '"' :: substituteFrom importInjection (some '"') 0 text := by
  have hopening : ∀ b ∈ opening.tails, dropPrefix? "import".toList b = none := by decide +kernel
  have hquote : '"' ∉ "import".toList := by decide
  have hnone : ∀ a b, opening = a ++ b → b ≠ [] →
      importInjection (charBehind none a) (b ++ '"' :: text) = none := by
    intro a b hab _
    refine importInjection_of_dropPrefix? ?_ _
    have hb : b ∈ opening.tails := (List.mem_tails _ _).mpr ⟨a, hab.symm⟩
    rw [dropPrefix?_append (by rintro c ⟨⟩; exact hquote), hopening b hb]
    rfl
  rw [substitute, substituteFrom_of_no_match hnone, substituteFrom, importInjection_of_dropPrefix? rfl]

/-- A text of one line that opens no named block at its start opens none. -/
theorem substitute_namedBlock_of_line (hfeed : '\n' ∉ text) (h : namedBlock none text = none) :
    substitute namedBlock text = text := by
  rcases substituteFrom_eq_or namedBlock none text with ⟨hcopied, -⟩ | ⟨a, b, m, rfl, -, hm, -⟩
  · exact hcopied
  · rcases List.eq_nil_or_concat' a with rfl | ⟨a, c, rfl⟩
    · exact absurd (h.symm.trans hm) nofun
    · have hstart := (exists_of_namedBlock hm).1
      rw [charBehind_append_singleton] at hstart
      have hc : c = '\n' := by simpa [atLineStart] using hstart
      exact absurd (by simp [hc]) hfeed

theorem dropCellPrefixes_attaching (name : List Char) :
    dropCellPrefixes (written (attachingParts name)) = written (attachingParts name) := by
  have hchain : (attachingParts name).IsChain Part.MayPrecede := by
    simp [attachingParts, Part.MayPrecede]
  have hopening : dropCellPrefixes opening = opening := by decide +kernel
  have hclosing : dropCellPrefixes [')'] = [')'] := by decide +kernel
  rw [dropCellPrefixes, substitute, substituteFrom_written hchain fun _ _ _ _ => Or.inl rfl]
  simp [attachingParts, Part.withoutPrefixes, written, Part.text, hopening, hclosing]

theorem hasInjection_quoted_iff (name : String) :
    HasInjection none (Json.quoted name) ↔ HasInjection (some '"') (escaped name.toList) := by
  have hquoted : Json.quoted name = '"' :: escaped name.toList ++ ['"'] := rfl
  constructor
  · rintro ⟨a, head, clause, rest, htext, hstart, hinjection⟩
    obtain ⟨inner, rfl⟩ := hinjection.exists_clause
    rw [hquoted] at htext
    -- it begins behind the first quote and ends before the last
    cases a with
    | nil =>
      obtain ⟨b₁, names, -, -, -, -, -, -, rfl, -⟩ := hinjection
      exact absurd (List.cons.inj htext).1 (by decide)
    | cons c a =>
      obtain ⟨hc, hinner⟩ := List.cons.inj htext
      subst hc
      replace hinner : escaped name.toList ++ ['"'] = a ++ (head ++ ('}' :: inner ++ ['}']) ++ rest) := hinner
      rcases List.eq_nil_or_concat' rest with rfl | ⟨rest, z, rfl⟩
      · have hlast : escaped name.toList ++ ['"'] = a ++ (head ++ '}' :: inner) ++ ['}'] := by simp [hinner]
        exact absurd (List.append_inj' hlast rfl).2 (by decide)
      · have hlast : escaped name.toList ++ ['"'] = a ++ (head ++ ('}' :: inner ++ ['}']) ++ rest) ++ [z] := by
          simp [hinner]
        exact ⟨a, head, _, rest, (List.append_inj' hlast rfl).1, hstart, hinjection⟩
  · rintro ⟨a, head, clause, rest, htext, hstart, hinjection⟩
    exact ⟨'"' :: a, head, clause, rest ++ ['"'], by simp [hquoted, htext], hstart, hinjection⟩

/-- The script is normalized to one that attaches a file by the name without its injections. -/
theorem exists_normalize_attaching (name : String) : ∃ out : String, normalize (attaching name) = attaching out ∧
    (out = name ∧ ¬ HasInjection none (Json.quoted name) ∨ out ≠ name ∧ HasInjection none (Json.quoted name)) := by
  have htail : '}' ∉ ['"', ')'] := by decide
  obtain ⟨out, hrun, hout⟩ := exists_without_injections htail name.toList (some '"')
  have hscript : ∀ text : List Char, (attaching (.ofList text)).toList = written (attachingParts text) := by
    intro text
    simp [attaching, Json.quoted, written, attachingParts, Part.text, escaped]
  have hsplit : ∀ text : List Char, written (attachingParts text) = opening ++ '"' :: (escaped text ++ ['"', ')']) := by
    intro text
    simp [written_attachingParts]
  have himported : substitute importInjection (attaching name).toList = written (attachingParts out) := by
    have hname := hscript name.toList
    rw [String.ofList_toList] at hname
    rw [hname, hsplit, substitute_importInjection_opening, hrun, hsplit]
  have hopened : substitute namedBlock (written (attachingParts out)) = written (attachingParts out) := by
    refine substitute_namedBlock_of_line ?_ ?_
    · have hopening : '\n' ∉ opening := by decide +kernel
      simp [hsplit, hopening, feed_not_mem_escaped]
    · rw [hsplit]
      rfl
  refine ⟨.ofList out, ?_, ?_⟩
  · rw [normalize, himported, hopened, dropCellPrefixes_attaching, ← hscript, String.ofList_toList]
  · rw [hasInjection_quoted_iff]
    rcases hout with ⟨rfl, hnone⟩ | ⟨hlt, hsome⟩
    · exact Or.inl ⟨String.ofList_toList, hnone⟩
    · refine Or.inr ⟨?_, hsome⟩
      rintro rfl
      simp at hlt

/-! ## Reading the script -/

theorem next?_name (name rest : List Char) : Token.next? ('"' :: (escaped name ++ '"' :: rest)) =
    some ⟨.text (.ofList name), false, '"' :: (escaped name ++ '"' :: rest), rest⟩ := by
  have hgap : skipGap? .blank false ('"' :: (escaped name ++ '"' :: rest)) =
      some (false, '"' :: (escaped name ++ '"' :: rest)) := rfl
  have hscan : Token.scan? ('"' :: (escaped name ++ '"' :: rest)) = some (.text (.ofList name), rest) := by
    have hstart : isIdentifierStart '"' = false := by decide
    simp [Token.scan?, hstart, stringBody?_escaped, toString_map_char]
  simp [Token.next?, hgap, hscan]

/-- The script is read as the call that it writes. -/
theorem parse?_attaching (name : String) : parse? (attaching name) = some (attachedTree "x" "FileAttachment" name) := by
  let tail := '"' :: (escaped name.toList ++ ['"', ')'])
  have htext : (attaching name).toList = opening ++ tail := by simp [attaching, Json.quoted, tail, escaped]
  let t₀ : Token := ⟨.word "x" false, false, opening ++ tail, " = FileAttachment(".toList ++ tail⟩
  let t₁ : Token := ⟨.mark "=", false, "= FileAttachment(".toList ++ tail, " FileAttachment(".toList ++ tail⟩
  let t₂ : Token := ⟨.word "FileAttachment" false, false, "FileAttachment(".toList ++ tail, '(' :: tail⟩
  let t₃ : Token := ⟨.mark "(", false, '(' :: tail, tail⟩
  let t₄ : Token := ⟨.text name, false, tail, [')']⟩
  let t₅ : Token := ⟨.mark ")", false, [')'], []⟩
  let t₆ : Token := ⟨.finish, false, [], []⟩
  have hname : t₃.Precedes t₄ := by
    have hnext := next?_name name.toList [')']
    rwa [String.ofList_toList] at hnext
  have hprogram : ∀ n, Takes (program (productions (n + 5))) t₀ (attachedTree "x" "FileAttachment" name) t₆ := fun n =>
    takes_program n (by decide) (by decide) rfl rfl rfl rfl rfl rfl rfl rfl rfl rfl hname rfl rfl
  have hfirst : Token.next? (opening ++ tail) = some t₀ := rfl
  have hline : dropInterpreterLine (opening ++ tail) = opening ++ tail := rfl
  obtain ⟨n, hn⟩ : ∃ n, (opening ++ tail).length + 4 = n + 5 := ⟨(opening ++ tail).length - 1, by simp [tail]; omega⟩
  have hexported : (attachedTree "x" "FileAttachment" name).preorder.flatMap Node.exportedNames = [] := rfl
  simp only [parse?, htext, hline, hfirst, hn, hprogram n 0, hexported, Option.bind_eq_bind, Option.bind_some]
  rfl

/-- What the script attaches. -/
theorem scriptReferences?_attaching (name : String) :
    scriptReferences? (some "FileAttachment") (attaching name) = some ⟨[], [name]⟩ := by
  rw [scriptReferences?, parse?_attaching]
  rfl

theorem cellReferences?_attaching {name out : String} (h : normalize (attaching name) = attaching out) :
    cellReferences? "FileAttachment" (attaching name) = some ⟨[], [out]⟩ := by
  rw [cellReferences?, h, scriptReferences?_attaching]

/-- Literals and comments stay as they are when a script is normalized, if what the notation of cells says beyond that
of scripts is found in code only. It is looked for in literals too: a name in quotes is attached as it is just if
no import with an injection is found in it. -/
theorem verbatim_unless_found (parts : List Part) (name : String) :
    (parts.IsChain Part.MayPrecede → InjectsInCode parts → OpensInCode parts →
      ∃ parts', List.Forall₂ Part.Like parts parts' ∧ parts'.IsChain Part.MayPrecede ∧
        normalize (.ofList (written parts)) = .ofList (written parts')) ∧
    ∃ attached : String,
      references? .script ({} : Configuration).attachmentFunction (attaching name) = some ⟨[], [attached]⟩ ∧
        (attached = name ↔ ¬ HasInjection none (Json.quoted name)) := by
  refine ⟨fun hchain hinjects hopens => exists_like_normalize hchain hinjects hopens, ?_⟩
  obtain ⟨out, hnormalize, hout⟩ := exists_normalize_attaching name
  have hattached : references? .script ({} : Configuration).attachmentFunction (attaching name) = some ⟨[], [out]⟩ := by
    rw [references?]
    exact cellReferences?_attaching hnormalize
  refine ⟨out, hattached, ?_⟩
  rcases hout with ⟨hsame, hnone⟩ | ⟨hother, hsome⟩
  · exact iff_of_true hsame hnone
  · exact iff_of_false hother (not_not.mpr hsome)

/-- Where no line within a literal or a comment begins with a letter, none opens a named block. -/
theorem opensInCode_of_getElem? {parts : List Part} (h : ∀ part ∈ parts, part.isVerbatim = true →
    ∀ n < part.text.length, part.text[n]? = some '\n' → (part.text[n + 1]?.any isCellStart) = false) :
    OpensInCode parts := by
  intro part hpart hverbatim a head name rest htext hhead
  obtain ⟨-, first, hmem, hfirst⟩ := hhead.beginning []
  obtain ⟨ds, rfl⟩ := List.head?_eq_some_iff.mp hmem
  have hline := h part hpart hverbatim a.length (by simp [htext]) (by simp [htext])
  simp [htext, hfirst] at hline

namespace Injected

/-- A name that looks like an import with an injection. -/
def name : String := "import \x7ba\x7d with \x7bb\x7d.csv"

/-- An import with an injection in code, and the like of one on two lines of a template; a named block in code, and the
like of one in a comment. -/
def parts : List Part := [
  .code ⟨"import \x7bviewof a\x7d with \x7bb\x7d from ".toList, by simp, List.all_eq_true.mp (by decide +kernel)⟩,
  .literal ⟨'"', "./viewof c.js".toList, isQuote_double, quotable_of_afterQuoted? rfl (by decide +kernel)⟩,
  .code ⟨"\nviewof y = \x7b ".toList, by simp, List.all_eq_true.mp (by decide +kernel)⟩,
  .literal ⟨'\x60', "import \x7b\n with \x7bd\x7d".toList, isQuote_backtick,
    quotable_of_afterQuoted? rfl (by decide +kernel)⟩,
  .lineComment ⟨" z = \x7b".toList, by decide +kernel⟩,
  .code ⟨"\n\x7d".toList, by simp, List.all_eq_true.mp (by decide +kernel)⟩]

theorem isChain_parts : parts.IsChain Part.MayPrecede := by
  simp [parts, Part.MayPrecede, Part.text]

/-- The only injection is at the start. -/
theorem injectsInCode_parts : InjectsInCode parts := by
  intro a head clause rest htext hstart hinjection
  have hm := importInjection_eq_some_iff.mpr ⟨hstart, head, clause, rest, hinjection, rfl, rfl⟩
  have hnowhere : ∀ n < (written parts).length + 1, n ≠ 0 →
      importInjection (charBehind none ((written parts).take n)) ((written parts).drop n) = none := by decide +kernel
  have ha : a = [] := by
    by_contra hne
    have hnone := hnowhere a.length (by rw [htext, List.length_append]; omega) (by simpa using hne)
    rw [htext, List.take_left, List.drop_left, hm] at hnone
    cases hnone
  subst ha
  have hfound : importInjection none (written parts) = some ⟨25, "import \x7bviewof a\x7d".toList⟩ := by decide +kernel
  have hlength : (written parts).length - rest.length - 1 = 25 := by
    rw [htext] at hfound ⊢
    exact congrArg Match.extra (Option.some.inj (hm.symm.trans hfound))
  have hwhole : head ++ clause = (written parts).take 26 := by
    rw [htext] at hlength ⊢
    refine (List.take_left' ?_).symm
    simp at hlength ⊢
    omega
  have hcut : (written parts).take 26 = "import \x7bviewof a\x7d with \x7bb\x7d".toList := by decide +kernel
  refine .here (?_ : _ = [] ++ head ++ clause ++ " from ".toList)
  rw [List.nil_append, hwhole, hcut]
  decide +kernel

theorem opensInCode_parts : OpensInCode parts := opensInCode_of_getElem? (by decide +kernel)

theorem hasInjection_name : HasInjection none (Json.quoted name) := by
  refine ⟨['"'], "import \x7ba".toList, "\x7d with \x7bb\x7d".toList, ".csv\"".toList, by decide +kernel, by decide, ?_⟩
  exact ⟨[' '], ['a'], [' '], [' '], ['b'], List.all_eq_true.mp (by decide), by decide, by decide, rfl, rfl⟩

/-- Of the script, all but code is kept. Of the name, an injection is left out. -/
theorem changed_name :
    (parts.IsChain Part.MayPrecede ∧ InjectsInCode parts ∧ OpensInCode parts ∧
      ∃ parts', List.Forall₂ Part.Like parts parts' ∧ parts'.IsChain Part.MayPrecede ∧
        normalize (.ofList (written parts)) = .ofList (written parts')) ∧
    HasInjection none (Json.quoted name) ∧
    ∃ attached, references? .script ({} : Configuration).attachmentFunction (attaching name) = some ⟨[], [attached]⟩ ∧
      attached = "import \x7ba\x7d.csv" ∧ attached ≠ name := by
  obtain ⟨hkeeps, attached, hattached, hsame⟩ := verbatim_unless_found parts name
  have hkept := hkeeps isChain_parts injectsInCode_parts opensInCode_parts
  have hleft : references? .script ({} : Configuration).attachmentFunction (attaching name) =
      some ⟨[], ["import \x7ba\x7d.csv"]⟩ := by decide +kernel
  have hlist := congrArg References.attachments (Option.some.inj (hattached.symm.trans hleft))
  exact ⟨⟨isChain_parts, injectsInCode_parts, opensInCode_parts, hkept⟩, hasInjection_name, attached, hattached,
    (List.cons.inj hlist).1, fun h => hsame.mp h hasInjection_name⟩

end Injected

end CellGraph.Script
