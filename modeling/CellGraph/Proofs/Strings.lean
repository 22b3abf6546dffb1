import CellGraph.Proofs.Quoting

/-!
# Strings read back

A string that has been written is read back as it was, whatever characters it has (`Json.stringAt?_quoted`): each
character reads back from its spelling (`Spelling.codePoints?`), and none of them is half of a surrogate pair
(`joinSurrogates?_map_toNat`). So its text in quotes is a text in JSON, and says just this string
(`Json.parse?_quoted`).
-/

namespace CellGraph

open Script

/-- What is written for a character is read back as its number. -/
theorem Script.Spelling.codePoints? {c : Char} {text : List Char} (h : Spelling c text) (rest : List Char) :
    Json.codePoints? (text ++ rest) = (Json.codePoints? rest).map fun (ns, behind) => (c.toNat :: ns, behind) := by
  rw [Option.map_eq_bind]
  cases h with
  | plain hquote hescape hshown =>
    rw [List.singleton_append, Json.codePoints?]
    · simp [hshown, hescape]
    all_goals simp [hquote, hescape]
  | @letter letter c h =>
    have hletters : ∀ p ∈ letterEscapes, p.1 ≠ 'u' ∧ Json.simpleEscape? p.1 = some p.2.toNat := by decide
    obtain ⟨hletter, hread⟩ := hletters _ h
    rw [List.cons_append, List.singleton_append, Json.codePoints?, hread]
    · rfl
    · simp [hletter]
  | @number n h =>
    have hdigits : ∀ n < 32, Text.hexNumber? ['0', '0', Text.hexDigit (n / 16), Text.hexDigit (n % 16)] = some n ∧
        (Char.ofNat n).toNat = n := by decide
    obtain ⟨hread, hnumber⟩ := hdigits n h
    simp only [List.cons_append, List.nil_append]
    rw [Json.codePoints?, hread, hnumber]
    rfl

namespace Json

/-- A character is no half of a surrogate pair, and what follows it is read on its own. -/
theorem joinSurrogates?_cons (c : Char) (ns : List Nat) :
    joinSurrogates? (c.toNat :: ns) = (joinSurrogates? ns).map (c :: ·) := by
  have hvalid : c.toNat < 0xD800 ∨ 0xDFFF < c.toNat ∧ c.toNat < 0x110000 := c.valid
  have hhigh : (decide (0xD800 ≤ c.toNat) && decide (c.toNat < 0xDC00)) = false := by simp; omega
  have hlow : (decide (0xDC00 ≤ c.toNat) && decide (c.toNat < 0xE000)) = false := by simp; omega
  have hhalf : (decide (0xD800 ≤ c.toNat) && decide (c.toNat < 0xE000)) = false := by simp; omega
  cases ns with
  | nil => simp [joinSurrogates?, hhalf, Char.ofNat_toNat]
  | cons n ns => simp [joinSurrogates?, hhigh, hlow, Char.ofNat_toNat]

theorem codePoints?_escaped (text rest : List Char) :
    codePoints? (escaped text ++ '"' :: rest) = some (text.map Char.toNat, rest) := by
  induction text with
  | nil => rfl
  | cons c cs ih =>
    have hsplit : escaped (c :: cs) ++ '"' :: rest = quotedChar c ++ (escaped cs ++ '"' :: rest) := by simp [escaped]
    rw [hsplit, (spelling_quotedChar c).codePoints?, ih]
    rfl

theorem joinSurrogates?_map_toNat (text : List Char) : joinSurrogates? (text.map Char.toNat) = some text := by
  induction text with
  | nil => rfl
  | cons c cs ih =>
    rw [List.map_cons, joinSurrogates?_cons, ih]
    rfl

/-- A string that has been written is read back, whatever follows it. -/
theorem stringAt?_quoted (text : String) (rest : List Char) :
    stringAt? (escaped text.toList ++ '"' :: rest) = some (some text, rest) := by
  simp [stringAt?, codePoints?_escaped, joinSurrogates?_map_toNat]

theorem treeAt?_quoted (text : String) (fuel : Nat) (rest : List Char) :
    treeAt? (fuel + 1) (quoted text ++ rest) = some (.string (some text), rest) := by
  have hquoted : quoted text ++ rest = '"' :: (escaped text.toList ++ '"' :: rest) := by simp [quoted, escaped]
  have hspaces : skipSpaces (quoted text ++ rest) = quoted text ++ rest := by
    rw [hquoted]
    rfl
  rw [treeAt?, hspaces, hquoted]
  simp only [stringAt?_quoted, Option.map_some]

/-- A string in quotes is a text in JSON that says this string. -/
theorem parse?_quoted (text : String) : Value.parse? (.ofList (quoted text)) = some (.string text) := by
  have htree : Tree.parse? (.ofList (quoted text)) = some (.string (some text)) := by
    rw [Tree.parse?, String.toList_ofList, ← List.append_nil (quoted text), treeAt?_quoted]
    rfl
  simp [Value.parse?, htree, Value.ofTree?]

end Json

end CellGraph
