import CellGraph.Proofs.Records
import CellGraph.Proofs.Strings

/-!
# Values read back from their texts

A value without numbers whose objects have their members in order (`Value.Plain`) is read back from its text
(`Value.parse?_print`). What is written for it is read as the value whatever follows, given fuel for twice its
characters (`ReadsAs`): a list of elements or members is so if each of them is, and so is the array or the object behind
its bracket.
-/

namespace CellGraph.Json

/-- A value that is all in its text: it has no numbers, and the members of its objects are in order. -/
inductive Value.Plain : Value → Prop
  | null : Plain .null
  | bool (b : Bool) : Plain (.bool b)
  | string (s : String) : Plain (.string s)
  | array {elements : List Value} (h : ∀ v ∈ elements, Plain v) : Plain (.array elements)
  | object {members : List (String × Value)} (sorted : members.Pairwise (·.1 < ·.1)) (h : ∀ m ∈ members, Plain m.2) :
      Plain (.object members)

namespace Value

theorem Plain.ofMembers {members : List (String × Value)} (h : ∀ m ∈ members, m.2.Plain) :
    (ofMembers members).Plain := by
  obtain ⟨sorted, hobject, hsorted, hmem⟩ := exists_ofMembers_eq members
  rw [hobject]
  exact .object hsorted fun m hm => h m (hmem m hm)

theorem Plain.array_map {α : Type} {encode : α → Value} (h : ∀ a, (encode a).Plain) (as : List α) :
    (Value.array (as.map encode)).Plain :=
  .array (List.forall_mem_map.mpr fun a _ => h a)

theorem plain_ofTexts (texts : List String) : (ofTexts texts).Plain := Plain.array_map .string texts

theorem plain_ofText? (text : Option String) : (ofText? text).Plain := by
  cases text with
  | none => exact .null
  | some text => exact .string text

end Value

/-- Whether a reader takes a text, whatever follows it, and what it makes of the text is kept as `a`. -/
def ReadsAs {τ α : Type} (read : Nat → List Char → Option (τ × List Char)) (kept : τ → Option α) (text : List Char)
    (a : α) : Prop :=
  ∃ tree, kept tree = some a ∧ ∀ fuel rest, 2 * text.length ≤ fuel → read fuel (text ++ rest) = some (tree, rest)

theorem ReadsAs.intro {τ α : Type} {read : Nat → List Char → Option (τ × List Char)} {kept : τ → Option α}
    {text : List Char} {a : α} (tree : τ) (hne : text ≠ []) (hkept : kept tree = some a)
    (h : ∀ fuel rest, 2 * text.length ≤ fuel + 1 → read (fuel + 1) (text ++ rest) = some (tree, rest)) :
    ReadsAs read kept text a := by
  refine ⟨tree, hkept, fun fuel rest hfuel => ?_⟩
  have hlength := List.length_pos_iff.mpr hne
  obtain ⟨fuel, rfl⟩ := Nat.exists_eq_succ_of_ne_zero (show fuel ≠ 0 by omega)
  exact h fuel rest hfuel

/-- Whether a text starts with a mark that a value may start with, a number apart. -/
def StartsValue (text : List Char) : Prop := ∃ c cs, text = c :: cs ∧ c ∈ ['n', 't', 'f', '"', '[', '{']

section Marks

variable {text rest : List Char}

theorem StartsValue.append (h : StartsValue text) (rest : List Char) : StartsValue (text ++ rest) := by
  obtain ⟨c, cs, rfl, hc⟩ := h
  exact ⟨c, cs ++ rest, rfl, hc⟩

theorem StartsValue.skipSpaces (h : StartsValue text) : Json.skipSpaces text = text := by
  obtain ⟨c, cs, rfl, hc⟩ := h
  have hshown : ∀ c ∈ ['n', 't', 'f', '"', '[', '{'], (c == ' ' || c == '\n' || c == '\t' || c == '\r') = false := by
    simp
  exact List.dropWhile_cons_of_neg (by simp [hshown c hc])

theorem StartsValue.ne_bracket (h : StartsValue text) : text ≠ ']' :: rest := by
  obtain ⟨c, cs, rfl, hc⟩ := h
  rintro ⟨⟩
  revert hc
  decide

end Marks

theorem startsValue_written {v : Value} (h : v.Plain) : StartsValue v.written := by
  cases h with
  | null => exact ⟨'n', _, rfl, by decide⟩
  | bool b => cases b <;> exact ⟨_, _, rfl, by decide⟩
  | string s => exact ⟨'"', _, rfl, by decide⟩
  | array => exact ⟨'[', _, rfl, by decide⟩
  | object => exact ⟨'{', _, rfl, by decide⟩

/-! ## Elements and members -/

section Lists

variable {fuel : Nat} {text behind rest : List Char} {tree : Tree} {trees : List Tree} {name : String}
  {members : List (Option String × Tree)} {v : Value} {vs : List Value} {m : String × Value}
  {ms : List (String × Value)}

theorem elementsAt?_last (h : treeAt? fuel text = some (tree, ']' :: rest)) :
    elementsAt? (fuel + 1) text = some ([tree], rest) := by
  rw [elementsAt?, h]
  rfl

theorem elementsAt?_next (h : treeAt? fuel text = some (tree, ',' :: behind))
    (hnext : elementsAt? fuel behind = some (trees, rest)) :
    elementsAt? (fuel + 1) text = some (tree :: trees, rest) := by
  have hcomma : skipSpaces (',' :: behind) = ',' :: behind := rfl
  rw [elementsAt?, h]
  simp [hcomma, hnext]

/-- The name of a member is read, and its value behind the colon. -/
theorem membersAt?_quoted (h : treeAt? fuel text = some (tree, rest)) :
    membersAt? (fuel + 1) (quoted name ++ ':' :: text) =
    match skipSpaces rest with
    | ',' :: cs => (membersAt? fuel cs).map fun (members, rest) => ((some name, tree) :: members, rest)
    | '}' :: cs => some ([(some name, tree)], cs)
    | _ => none := by
  have hquoted : quoted name ++ ':' :: text = '"' :: (Script.escaped name.toList ++ '"' :: ':' :: text) := by
    simp [quoted, Script.escaped]
  have hquote : ∀ cs, skipSpaces ('"' :: cs) = '"' :: cs := fun _ => rfl
  have hcolon : skipSpaces (':' :: text) = ':' :: text := rfl
  rw [hquoted, membersAt?, hquote]
  simp only [stringAt?_quoted, hcolon, h, Option.bind_eq_bind, Option.bind_some, Option.map_eq_bind]
  rfl

theorem membersAt?_last (h : treeAt? fuel text = some (tree, '}' :: rest)) :
    membersAt? (fuel + 1) (quoted name ++ ':' :: text) = some ([(some name, tree)], rest) := by
  rw [membersAt?_quoted h]
  rfl

theorem membersAt?_next (h : treeAt? fuel text = some (tree, ',' :: behind))
    (hnext : membersAt? fuel behind = some (members, rest)) :
    membersAt? (fuel + 1) (quoted name ++ ':' :: text) = some ((some name, tree) :: members, rest) := by
  have hcomma : skipSpaces (',' :: behind) = ',' :: behind := rfl
  rw [membersAt?_quoted h]
  simp [hcomma, hnext]

theorem writtenElements_cons (h : vs ≠ []) :
    Value.writtenElements (v :: vs) = v.written ++ ',' :: Value.writtenElements vs := by
  rw [Value.writtenElements]
  exact h

theorem writtenMembers_cons (h : ms ≠ []) :
    Value.writtenMembers (m :: ms) = quoted m.1 ++ ':' :: (m.2.written ++ ',' :: Value.writtenMembers ms) := by
  rw [Value.writtenMembers, List.append_assoc]
  · rfl
  · exact h

/-- Elements are read back if each of them is. -/
theorem readsAs_elements (hne : vs ≠ []) (h : ∀ v ∈ vs, ReadsAs treeAt? Value.ofTree? v.written v) :
    ReadsAs elementsAt? Value.ofElements? (Value.writtenElements vs) vs := by
  induction vs with
  | nil => exact absurd rfl hne
  | cons v vs ih =>
    obtain ⟨tree, hkept, hread⟩ := h v List.mem_cons_self
    by_cases hvs : vs = []
    · subst hvs
      rw [Value.writtenElements]
      refine .intro [tree] (List.append_ne_nil_of_right_ne_nil _ (List.cons_ne_nil _ _))
        (by simp [Value.ofElements?, hkept]) fun fuel rest hfuel => ?_
      rw [List.length_append, List.length_singleton] at hfuel
      rw [List.append_assoc]
      exact elementsAt?_last (hread fuel _ (by omega))
    · obtain ⟨trees, hkepts, hreads⟩ := ih hvs fun w hw => h w (List.mem_cons_of_mem _ hw)
      rw [writtenElements_cons hvs]
      refine .intro (tree :: trees) (List.append_ne_nil_of_right_ne_nil _ (List.cons_ne_nil _ _))
        (by simp [Value.ofElements?, hkept, hkepts]) fun fuel rest hfuel => ?_
      rw [List.length_append, List.length_cons] at hfuel
      rw [List.append_assoc]
      exact elementsAt?_next (hread fuel _ (by omega)) (hreads fuel rest (by omega))

/-- Members are read back if the value of each of them is. -/
theorem readsAs_members (hne : ms ≠ []) (h : ∀ m ∈ ms, ReadsAs treeAt? Value.ofTree? m.2.written m.2) :
    ReadsAs membersAt? Value.ofMembers? (Value.writtenMembers ms) ms := by
  induction ms with
  | nil => exact absurd rfl hne
  | cons m ms ih =>
    obtain ⟨tree, hkept, hread⟩ := h m List.mem_cons_self
    by_cases hms : ms = []
    · subst hms
      rw [Value.writtenMembers]
      refine .intro [(some m.1, tree)] (List.append_ne_nil_of_right_ne_nil _ (List.cons_ne_nil _ _))
        (by simp [Value.ofMembers?, hkept]) fun fuel rest hfuel => ?_
      simp only [List.length_append, List.length_cons] at hfuel
      simp only [List.append_assoc, List.cons_append]
      exact membersAt?_last (hread fuel _ (by omega))
    · obtain ⟨members, hkepts, hreads⟩ := ih hms fun m' hm' => h m' (List.mem_cons_of_mem _ hm')
      rw [writtenMembers_cons hms]
      refine .intro ((some m.1, tree) :: members) (List.append_ne_nil_of_right_ne_nil _ (List.cons_ne_nil _ _))
        (by simp [Value.ofMembers?, hkept, hkepts]) fun fuel rest hfuel => ?_
      simp only [List.length_append, List.length_cons] at hfuel
      simp only [List.append_assoc, List.cons_append]
      exact membersAt?_next (hread fuel _ (by omega)) (hreads fuel rest (by omega))

end Lists

/-! ## Values -/

section Values

variable {fuel : Nat} {text rest : List Char} {trees : List Tree} {members : List (Option String × Tree)}
    {vs : List Value}
  {ms : List (String × Value)}

theorem treeAt?_bracket (hstart : StartsValue text) (h : elementsAt? fuel text = some (trees, rest)) :
    treeAt? (fuel + 1) ('[' :: text) = some (.array trees, rest) := by
  have hbracket : skipSpaces ('[' :: text) = '[' :: text := rfl
  rw [treeAt?, hbracket]
  simp only [hstart.skipSpaces]
  split
  · rename_i hend
    exact absurd rfl hstart.ne_bracket
  · rw [h]
    rfl

theorem treeAt?_brace (h : membersAt? fuel ('"' :: text) = some (members, rest)) :
    treeAt? (fuel + 1) ('{' :: '"' :: text) = some (.object members, rest) := by
  have hbrace : skipSpaces ('{' :: '"' :: text) = '{' :: '"' :: text := rfl
  have hquote : skipSpaces ('"' :: text) = '"' :: text := rfl
  rw [treeAt?, hbrace]
  simp only [hquote]
  change (membersAt? fuel ('"' :: text)).map (fun x => (Tree.object x.1, x.2)) = _
  rw [h]
  rfl

theorem startsValue_writtenElements (hne : vs ≠ []) (h : ∀ v ∈ vs, v.Plain) :
    StartsValue (Value.writtenElements vs) := by
  obtain ⟨v, vs, rfl⟩ := List.exists_cons_of_ne_nil hne
  have hv := startsValue_written (h v List.mem_cons_self)
  by_cases hvs : vs = []
  · subst hvs
    exact hv.append _
  · exact writtenElements_cons hvs ▸ hv.append _

/-- Members start with the quote of a name. -/
theorem exists_writtenMembers_eq (hne : ms ≠ []) : ∃ behind, Value.writtenMembers ms = '"' :: behind := by
  obtain ⟨m, ms, rfl⟩ := List.exists_cons_of_ne_nil hne
  by_cases hms : ms = []
  · subst hms
    exact ⟨_, rfl⟩
  · exact ⟨_, writtenMembers_cons hms⟩

/-- An array is read back if its elements are. -/
theorem readsAs_array (h : ∀ v ∈ vs, v.Plain) (hread : ∀ v ∈ vs, ReadsAs treeAt? Value.ofTree? v.written v) :
    ReadsAs treeAt? Value.ofTree? (Value.array vs).written (.array vs) := by
  rw [Value.written]
  by_cases hvs : vs = []
  · subst hvs
    exact .intro (.array []) (List.cons_ne_nil _ _) rfl fun _ _ _ => rfl
  · obtain ⟨trees, hkept, hreads⟩ := readsAs_elements hvs hread
    refine .intro (.array trees) (List.cons_ne_nil _ _) (by simp [Value.ofTree?, hkept]) fun fuel rest hfuel => ?_
    rw [List.length_cons] at hfuel
    exact treeAt?_bracket ((startsValue_writtenElements hvs h).append rest) (hreads fuel rest (by omega))

/-- In whatever order members are written, they are read as the object that they make. -/
theorem readsAs_object (hread : ∀ m ∈ ms, ReadsAs treeAt? Value.ofTree? m.2.written m.2) :
    ReadsAs treeAt? Value.ofTree? (Value.object ms).written (.ofMembers ms) := by
  rw [Value.written]
  by_cases hms : ms = []
  · subst hms
    exact .intro (.object []) (List.cons_ne_nil _ _) rfl fun _ _ _ => rfl
  · obtain ⟨members, hkept, hreads⟩ := readsAs_members hms hread
    obtain ⟨behind, hbehind⟩ := exists_writtenMembers_eq hms
    refine .intro (.object members) (List.cons_ne_nil _ _) (by simp [Value.ofTree?, hkept]) fun fuel rest hfuel => ?_
    rw [List.length_cons] at hfuel
    have hmembers := hreads fuel rest (by omega)
    rw [hbehind] at hmembers ⊢
    exact treeAt?_brace hmembers

/-- A value is read back from its text, whatever follows it. -/
theorem readsAs_written {v : Value} (h : v.Plain) : ReadsAs treeAt? Value.ofTree? v.written v := by
  induction h with
  | null => exact .intro .null (List.cons_ne_nil _ _) rfl fun _ _ _ => rfl
  | bool b => cases b <;> exact .intro (.bool _) (List.cons_ne_nil _ _) rfl fun _ _ _ => rfl
  | string s =>
    rw [Value.written]
    exact .intro (.string (some s)) (List.cons_ne_nil _ _) rfl fun fuel rest _ => treeAt?_quoted s fuel rest
  | array h ih => exact readsAs_array h ih
  | object sorted _ ih => exact Value.ofMembers_of_pairwise sorted ▸ readsAs_object ih

/-- A value is read back from its text. -/
theorem Value.parse?_print {v : Value} (h : v.Plain) : Value.parse? v.print = some v := by
  obtain ⟨tree, hkept, hread⟩ := readsAs_written h
  have htext := hread (2 * v.print.length + 2) [] (by simp [print])
  rw [List.append_nil] at htext
  have htree : Tree.parse? v.print = some tree := by
    rw [Tree.parse?, print, String.toList_ofList, ← print, htext]
    rfl
  rw [Value.parse?, htree, Option.bind_some, hkept]

end Values

end CellGraph.Json
