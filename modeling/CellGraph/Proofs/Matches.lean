import CellGraph.Text.Substitution

/-!
# Matches

What replacing the matches of a pattern does to a text: a match is replaced as a whole (`substituteFrom_of_match`), a
text in which none starts is copied (`substituteFrom_of_no_match`), and a pattern that sees no further than to the end
of a text does the same there as if the text stood alone (`substituteFrom_append`).
-/

namespace CellGraph.Text

variable {pattern : Pattern} {before : Option Char} {start text rest : List Char} {c : Char}

/-- The character before what follows a text, given the one before the text itself. -/
def charBehind (before : Option Char) : List Char → Option Char
  | [] => before
  | c :: cs => charBehind (some c) cs

theorem charBehind_append (before : Option Char) (a b : List Char) :
    charBehind before (a ++ b) = charBehind (charBehind before a) b := by
  induction a generalizing before with
  | nil => rfl
  | cons c cs ih => exact ih (some c)

theorem charBehind_append_singleton (before : Option Char) (a : List Char) (c : Char) :
    charBehind before (a ++ [c]) = some c :=
  charBehind_append before a [c]

/-- The rest of a match is passed over. -/
theorem substituteFrom_skip (pattern : Pattern) (before : Option Char) (text rest : List Char) :
    substituteFrom pattern before text.length (text ++ rest) =
      substituteFrom pattern (charBehind before text) 0 rest := by
  induction text generalizing before with
  | nil => rfl
  | cons c cs ih =>
    rw [List.length_cons, List.cons_append, substituteFrom]
    exact ih (some c)

theorem upTo_append (text rest replacement : List Char) :
    Match.upTo (text ++ rest) rest replacement = ⟨text.length - 1, replacement⟩ := by
  simp [Match.upTo]

theorem upTo_append_append (text part rest replacement : List Char) :
    Match.upTo (text ++ rest) (part ++ rest) replacement = Match.upTo text part replacement := by
  simp only [Match.upTo, List.length_append, Nat.add_sub_add_right]

/-- A match is replaced. -/
theorem substituteFrom_of_match {replacement : List Char} (hne : text ≠ [])
    (h : pattern before (text ++ rest) = some (.upTo (text ++ rest) rest replacement)) :
    substituteFrom pattern before 0 (text ++ rest) =
      replacement ++ substituteFrom pattern (charBehind before text) 0 rest := by
  obtain ⟨c, cs, rfl⟩ := List.exists_cons_of_ne_nil hne
  rw [upTo_append] at h
  rw [List.cons_append] at h ⊢
  rw [substituteFrom, h]
  exact congrArg (replacement ++ ·) (substituteFrom_skip pattern (some c) cs rest)

/-- A text in which no match starts is copied. -/
theorem substituteFrom_of_no_match
    (h : ∀ a b, text = a ++ b → b ≠ [] → pattern (charBehind before a) (b ++ rest) = none) :
    substituteFrom pattern before 0 (text ++ rest) =
      text ++ substituteFrom pattern (charBehind before text) 0 rest := by
  induction text generalizing before with
  | nil => rfl
  | cons c cs ih =>
    have hc : pattern before (c :: (cs ++ rest)) = none := h [] (c :: cs) rfl (List.cons_ne_nil _ _)
    have hcs := @ih (some c) fun a b hab hb => h (c :: a) b (by rw [hab, List.cons_append]) hb
    rw [List.cons_append, substituteFrom, hc]
    exact congrArg (c :: ·) hcs

/-- In a text no match starts, and it is copied, or what stands before the first match is. -/
theorem substituteFrom_eq_or (pattern : Pattern) (before : Option Char) (text : List Char) :
    (substituteFrom pattern before 0 text = text ∧
        ∀ a b, text = a ++ b → b ≠ [] → pattern (charBehind before a) b = none) ∨
      ∃ a b m, text = a ++ b ∧ b ≠ [] ∧ pattern (charBehind before a) b = some m ∧
        substituteFrom pattern before 0 text = a ++ substituteFrom pattern (charBehind before a) 0 b := by
  induction text generalizing before with
  | nil =>
    refine Or.inl ⟨rfl, fun a b hab hb => ?_⟩
    exact absurd (List.append_eq_nil_iff.mp hab.symm).2 hb
  | cons c cs ih =>
    cases hmatch : pattern before (c :: cs) with
    | some m => exact Or.inr ⟨[], c :: cs, m, rfl, List.cons_ne_nil _ _, hmatch, rfl⟩
    | none =>
      have hstep : substituteFrom pattern before 0 (c :: cs) = c :: substituteFrom pattern (some c) 0 cs := by
        rw [substituteFrom, hmatch]
      rcases ih (some c) with ⟨hcopied, hnone⟩ | ⟨a, b, m, rfl, hb, hm, hcopied⟩
      · refine Or.inl ⟨by rw [hstep, hcopied], fun a b hab hb => ?_⟩
        cases a with
        | nil =>
          obtain rfl : c :: cs = b := hab
          exact hmatch
        | cons d ds =>
          obtain ⟨rfl, hcs⟩ := List.cons.inj hab
          exact hnone ds b hcs hb
      · exact Or.inr ⟨c :: a, b, m, rfl, hb, hm, by rw [hstep, hcopied]; rfl⟩

/-- If a pattern sees no further than to the end of a text, matches are replaced in it as if it stood alone. -/
theorem substituteFrom_append (hlocal : ∀ before part, part <:+ text → part ≠ [] →
      pattern before (part ++ rest) = pattern before part)
    (hfits : ∀ before part m, part <:+ text → pattern before part = some m → m.extra < part.length)
    {skip : Nat} (hskip : skip ≤ text.length) :
    substituteFrom pattern before skip (text ++ rest) =
      substituteFrom pattern before skip text ++ substituteFrom pattern (charBehind before text) 0 rest := by
  induction text generalizing before skip with
  | nil =>
    obtain rfl : skip = 0 := by simpa using hskip
    rfl
  | cons c cs ih =>
    have htail : cs <:+ c :: cs := List.suffix_cons c cs
    have hrest := @ih (some c) (fun before part hpart => hlocal before part (hpart.trans htail))
      (fun before part m hpart => hfits before part m (hpart.trans htail))
    cases skip with
    | succ skip =>
      simp only [List.length_cons, Nat.add_le_add_iff_right] at hskip
      rw [List.cons_append, substituteFrom, substituteFrom]
      exact hrest hskip
    | zero =>
      have hhead := hlocal before (c :: cs) List.suffix_rfl (List.cons_ne_nil _ _)
      rw [List.cons_append] at hhead ⊢
      cases hmatch : pattern before (c :: cs) with
      | none =>
        rw [substituteFrom, substituteFrom, hhead, hmatch]
        exact congrArg (c :: ·) (hrest (Nat.zero_le _))
      | some m =>
        have hextra := hfits before (c :: cs) m List.suffix_rfl hmatch
        have hcover := @hrest m.extra (by simpa [Nat.lt_succ_iff] using hextra)
        rw [substituteFrom, substituteFrom, hhead, hmatch]
        simp only [hcover, List.append_assoc]
        rfl

theorem dropPrefix?_eq_some_iff : dropPrefix? start text = some rest ↔ text = start ++ rest := by
  refine ⟨eq_append_of_dropPrefix?, ?_⟩
  rintro rfl
  induction start with
  | nil => rfl
  | cons c cs ih => simpa [dropPrefix?] using ih

/-- Where what follows begins with a character that is not part of what is dropped, it is not looked at. -/
theorem dropPrefix?_append (h : ∀ c ∈ rest.head?, c ∉ start) (text : List Char) :
    dropPrefix? start (text ++ rest) = (dropPrefix? start text).map (· ++ rest) := by
  induction start generalizing text with
  | nil => rfl
  | cons c cs ih =>
    cases text with
    | nil =>
      cases rest with
      | nil => rfl
      | cons d ds =>
        have hd : c ≠ d := fun e => h d rfl (e ▸ List.mem_cons_self)
        simp [dropPrefix?, hd]
    | cons d ds =>
      have hds := ih (fun c hc hmem => h c hc (List.mem_cons_of_mem _ hmem)) ds
      by_cases hd : c = d <;> simp [dropPrefix?, hd, hds]

end CellGraph.Text
