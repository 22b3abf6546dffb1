import CellGraph.Proofs.Editing

/-!
# Literals and comments that stay as they are

What the notation of cells says beyond that of scripts: imports with an injection (`IsInjection`) and named blocks
(`IsBlockHead`). Both are looked for in the text alone. Where they are found in code only, a script keeps all its
literals and comments when it is normalized (`exists_like_normalize`).
-/

namespace CellGraph.Script

open Text

variable {before : Option Char} {text rest : List Char} {c : Char} {parts : List Part}

/-! ## Imports with an injection -/

/-- An import of names in braces, up to the closing one, and from there on the clause that injects cells into it. -/
def IsInjection (head clause : List Char) : Prop :=
  ∃ b₁ names b₂ b₃ cells, (∀ b ∈ b₁ ++ b₂ ++ b₃, isBlank b = true) ∧ '}' ∉ names ∧ '}' ∉ cells ∧
    head = "import".toList ++ b₁ ++ '{' :: names ∧ clause = '}' :: b₂ ++ "with".toList ++ b₃ ++ '{' :: cells ++ ['}']

theorem afterBraces?_append {body : List Char} (h : '}' ∉ body) (rest : List Char) :
    afterBraces? ('{' :: body ++ '}' :: rest) = some rest := by
  have hbody : ∀ d ∈ body, (d != '}') = true := by
    intro d hd
    simpa using fun e : d = '}' => h (e ▸ hd)
  rw [List.cons_append, afterBraces?, List.dropWhile_append_of_pos hbody]
  rfl

theorem exists_of_afterBraces? (h : afterBraces? text = some rest) :
    ∃ body, '}' ∉ body ∧ text = '{' :: body ++ '}' :: rest := by
  unfold afterBraces? at h
  split at h
  next cs =>
    split at h
    next d rest' hdrop =>
      cases h
      obtain rfl : d = '}' := by
        have hhead := List.head_dropWhile_not (· != '}') (l := cs) (by simp [hdrop])
        simpa [hdrop] using hhead
      refine ⟨cs.takeWhile (· != '}'), ?_, ?_⟩
      · intro hmem
        simpa using List.all_eq_true.mp (List.all_takeWhile (p := (· != '}')) (l := cs)) _ hmem
      · rw [← hdrop, List.cons_append, List.takeWhile_append_dropWhile]
    next => cases h
  next => cases h

theorem importInjection_eq_some_iff {m : Match} : importInjection before text = some m ↔
    atWordStart before = true ∧ ∃ head clause rest, IsInjection head clause ∧ text = head ++ clause ++ rest ∧
      m = .upTo text rest (head ++ ['}']) := by
  constructor
  · intro h
    simp only [importInjection, Option.bind_eq_bind, Option.bind_eq_some_iff] at h
    obtain ⟨_, hguard, names, hnames, clause, hclause, injected, hinjected, rest, hrest, h⟩ := h
    have hstart : atWordStart before = true := (Option.guard_eq_some' _).mp hguard
    obtain ⟨body, hbody, hnames'⟩ := exists_of_afterBraces? hclause
    obtain ⟨b₁, hb₁, rfl⟩ := exists_of_afterBlanks hnames'
    obtain ⟨b₂, hb₂, rfl⟩ := exists_of_afterBlanks (dropPrefix?_eq_some_iff.mp hinjected)
    obtain ⟨cells, hcells, hinjected'⟩ := exists_of_afterBraces? hrest
    obtain ⟨b₃, hb₃, rfl⟩ := exists_of_afterBlanks hinjected'
    have htext := dropPrefix?_eq_some_iff.mp hnames
    have hwhole : text = "import".toList ++ b₁ ++ '{' :: body ++ ['}'] ++
        (b₂ ++ ("with".toList ++ (b₃ ++ '{' :: cells ++ '}' :: rest))) := by
      rw [htext]
      simp
    refine ⟨hstart, _, _, rest, ⟨b₁, body, b₂, b₃, cells, ?_, hbody, hcells, rfl, rfl⟩, ?_, ?_⟩
    · simpa only [List.forall_mem_append] using ⟨⟨hb₁, hb₂⟩, hb₃⟩
    · rw [hwhole]
      simp
    · rw [← Option.some.inj h, hwhole, List.take_left' (by simp only [List.length_append]; omega)]
  · rintro ⟨hstart, head, clause, rest, ⟨b₁, names, b₂, b₃, cells, hblanks, hnames, hcells, rfl, rfl⟩, rfl, rfl⟩
    simp only [List.forall_mem_append] at hblanks
    obtain ⟨⟨hb₁, hb₂⟩, hb₃⟩ := hblanks
    -- what is left behind each piece
    let injected := b₃ ++ '{' :: (cells ++ '}' :: rest)
    let imported := b₂ ++ ("with".toList ++ injected)
    let behind := b₁ ++ '{' :: (names ++ '}' :: imported)
    have htext : "import".toList ++ b₁ ++ '{' :: names ++
        ('}' :: b₂ ++ "with".toList ++ b₃ ++ '{' :: cells ++ ['}']) ++ rest = "import".toList ++ behind := by
      simp [behind, imported, injected]
    have hbehind : afterBraces? (afterBlanks behind) = some imported := by
      rw [afterBlanks_append hb₁ (by decide)]
      exact afterBraces?_append hnames imported
    have himported : dropPrefix? "with".toList (afterBlanks imported) = some injected := by
      have hwith : imported = b₂ ++ 'w' :: ("ith".toList ++ injected) := rfl
      rw [hwith, afterBlanks_append hb₂ (by decide)]
      exact dropPrefix?_eq_some_iff.mpr rfl
    have hinjected : afterBraces? (afterBlanks injected) = some rest := by
      rw [afterBlanks_append hb₃ (by decide)]
      exact afterBraces?_append hcells rest
    have hkept : ("import".toList ++ behind).take (("import".toList ++ behind).length - imported.length) =
        "import".toList ++ b₁ ++ '{' :: names ++ ['}'] := by
      have hsplit : "import".toList ++ behind = "import".toList ++ b₁ ++ '{' :: names ++ ['}'] ++ imported := by
        simp [behind]
      rw [hsplit, List.take_left' (by simp only [List.length_append]; omega)]
    have hnames : dropPrefix? "import".toList ("import".toList ++ behind) = some behind :=
      dropPrefix?_eq_some_iff.mpr rfl
    have hguard : (guard (atWordStart before) : Option Unit) = some () := (Option.guard_eq_some' _).mpr hstart
    simp only [htext, importInjection, hguard, hnames, hbehind, himported, hinjected, hkept, Option.bind_eq_bind,
      Option.bind_some, Option.pure_def]

/-- Whether every clause that injects cells into an import lies in code. -/
def InjectsInCode (parts : List Part) : Prop :=
  ∀ a head clause rest, written parts = a ++ (head ++ clause ++ rest) → atWordStart (charBehind none a) = true →
    IsInjection head clause → InCode parts (a ++ head) clause

theorem InjectsInCode.editsCode (h : InjectsInCode parts) : EditsCode importInjection none parts := by
  intro a b m hab hm
  obtain ⟨hstart, head, clause, rest, hinjection, rfl, rfl⟩ := importInjection_eq_some_iff.mp hm
  have hcode := h a head clause rest hab hstart hinjection
  obtain ⟨b₁, names, b₂, b₃, cells, -, -, -, -, rfl⟩ := hinjection
  exact ⟨head, _, ['}'], rest, rfl, rfl, by simp, by simp; decide, rfl, hcode⟩

/-! ## Named blocks -/

/-- What opens a named block: a name, perhaps behind a cell prefix, an equals sign and a brace. -/
def IsBlockHead (head name : List Char) : Prop :=
  ∃ front first more b₁ b₂, (front = [] ∨ IsCellPrefix front) ∧ isCellStart first = true ∧
    (∀ c ∈ more, (isWord c || c == '$') = true) ∧ (∀ b ∈ b₁ ++ b₂, isBlank b = true) ∧
    name = first :: more ∧ head = front ++ name ++ b₁ ++ '=' :: b₂ ++ ['{']

theorem isWord_or_of_isCellStart (h : isCellStart c = true) : (isWord c || c == '$') = true := by
  simp only [isCellStart, Bool.or_eq_true, beq_iff_eq] at h
  rcases h with (h | rfl) | rfl
  · have hascii : c.toNat < 0x80 := by
      have := isAlpha_iff.mp h
      omega
    simp [isWord, hascii, isAsciiWord, Char.isAlphanum, h]
  · decide
  · decide

theorem exists_of_blockHead? {name : List Char} (h : blockHead? text = some (name, rest)) :
    ∃ first more b₁ b₂, isCellStart first = true ∧ (∀ c ∈ more, (isWord c || c == '$') = true) ∧
      (∀ b ∈ b₁ ++ b₂, isBlank b = true) ∧ name = first :: more ∧
      text = name ++ b₁ ++ '=' :: b₂ ++ ['{'] ++ rest := by
  simp only [blockHead?, Option.bind_eq_bind, Option.bind_eq_some_iff] at h
  obtain ⟨⟨name', behind⟩, hname, value, hvalue, body, hbody, h⟩ := h
  cases h
  cases text with
  | nil => cases hname
  | cons c cs =>
    rw [cellName?] at hname
    split at hname
    next hc =>
      obtain ⟨rfl, rfl⟩ := Prod.mk.inj (Option.some.inj hname)
      have hfirst :=
        List.takeWhile_cons_of_pos (p := fun c => isWord c || c == '$') (l := cs) (isWord_or_of_isCellStart hc)
      obtain ⟨b₁, hb₁, hbehind⟩ := exists_of_afterBlanks (dropPrefix?_eq_some_iff.mp hvalue)
      obtain ⟨b₂, hb₂, rfl⟩ := exists_of_afterBlanks (dropPrefix?_eq_some_iff.mp hbody)
      refine ⟨c, cs.takeWhile fun c => isWord c || c == '$', b₁, b₂, hc, List.all_eq_true.mp List.all_takeWhile,
        ?_, ?_, ?_⟩
      · simpa only [List.forall_mem_append] using ⟨hb₁, hb₂⟩
      · exact hfirst
      · have hcut := List.takeWhile_append_dropWhile (p := fun c => isWord c || c == '$') (l := cs)
        dsimp only at hbehind ⊢
        rw [hbehind] at hcut
        rw [hfirst]
        conv_lhs => rw [← hcut]
        simp
    next => cases hname

theorem exists_of_namedBlock {m : Match} (h : namedBlock before text = some m) :
    atLineStart before = true ∧ ∃ head name rest, IsBlockHead head name ∧ text = head ++ rest ∧
      m = .upTo text rest (name ++ " = async function* () \x7b".toList) := by
  simp only [namedBlock, Option.bind_eq_bind, Option.bind_eq_some_iff] at h
  obtain ⟨_, hguard, ⟨name, rest⟩, hfound, h⟩ := h
  refine ⟨(Option.guard_eq_some' _).mp hguard, ?_⟩
  have hm := (Option.some.inj h).symm
  cases hprefixed : (afterCellPrefix? text).bind blockHead? with
  | some found =>
    obtain ⟨behind, hbehind, hhead⟩ := Option.bind_eq_some_iff.mp hprefixed
    rw [hprefixed] at hfound
    obtain rfl : found = (name, rest) := Option.some.inj hfound
    obtain ⟨front, hfront, rfl⟩ := exists_of_afterCellPrefix? hbehind
    obtain ⟨first, more, b₁, b₂, hfirst, hmore, hb, hname, rfl⟩ := exists_of_blockHead? hhead
    exact ⟨_, name, rest, ⟨front, first, more, b₁, b₂, Or.inr hfront, hfirst, hmore, hb, hname, rfl⟩, by simp, hm⟩
  | none =>
    rw [hprefixed] at hfound
    obtain ⟨first, more, b₁, b₂, hfirst, hmore, hb, hname, htext⟩ := exists_of_blockHead? hfound
    exact ⟨_, name, rest, ⟨[], first, more, b₁, b₂, Or.inl rfl, hfirst, hmore, hb, hname, rfl⟩,
      by simpa using htext, hm⟩

theorem isPlain_of_isWord (h : (isWord c || c == '$') = true) : isPlain c = true := by
  by_contra hplain
  rcases isPlain_eq_false_iff.mp (Bool.eq_false_iff.mpr hplain) with rfl | rfl | rfl | rfl <;> revert h <;> decide

namespace IsBlockHead

variable {head name : List Char}

theorem plain_name (h : IsBlockHead head name) : ∀ c ∈ name, isPlain c = true := by
  obtain ⟨front, first, more, b₁, b₂, -, hfirst, hmore, -, rfl, -⟩ := h
  exact List.forall_mem_cons.mpr
    ⟨isPlain_of_isWord (isWord_or_of_isCellStart hfirst), fun c hc => isPlain_of_isWord (hmore c hc)⟩

theorem plain (h : IsBlockHead head name) : ∀ c ∈ head, isPlain c = true := by
  have hname := h.plain_name
  obtain ⟨front, first, more, b₁, b₂, hfront, -, -, hblanks, -, rfl⟩ := h
  have hkeep : ∀ c ∈ front, isPlain c = true := by
    rcases hfront with rfl | hfront
    · exact List.forall_mem_nil _
    · exact hfront.plain
  have hequals : isPlain '=' = true := by decide
  have hbrace : isPlain '\x7b' = true := by decide
  have hb : ∀ c ∈ b₁ ++ b₂, isPlain c = true := fun c hc => isPlain_of_isBlank (hblanks c hc)
  simp only [List.forall_mem_append, List.forall_mem_cons] at hb ⊢
  exact ⟨⟨⟨⟨hkeep, hname⟩, hb.1⟩, hequals, hb.2⟩, hbrace, List.forall_mem_nil _⟩

theorem beginning (h : IsBlockHead head name) (text : List Char) :
    beginning head = Script.beginning (name ++ text) ∧ ∃ c ∈ head.head?, isCellStart c = true := by
  obtain ⟨front, first, more, b₁, b₂, hfront, hfirst, -, -, rfl, rfl⟩ := h
  rcases hfront with rfl | hfront
  · exact ⟨rfl, first, rfl, hfirst⟩
  · obtain ⟨c, cs, rfl, hc⟩ := hfront.exists_cons
    exact ⟨by simp [Script.beginning, hfirst, hc], c, rfl, hc⟩

end IsBlockHead

/-- Whether no line within a literal or a comment opens a named block. -/
def OpensInCode (parts : List Part) : Prop :=
  ∀ part ∈ parts, part.isVerbatim = true → ∀ a head name rest, part.text = a ++ '\n' :: (head ++ rest) →
    ¬ IsBlockHead head name

/-- Every place in what is written for parts is one in a part. -/
theorem exists_part_at {a b : List Char} (h : written parts = a ++ b) (hne : b ≠ []) :
    ∃ front part back u v, parts = front ++ part :: back ∧ a = written front ++ u ∧ part.text = u ++ v ∧ v ≠ [] ∧
      b = v ++ written back := by
  induction parts generalizing a with
  | nil => exact absurd (List.append_eq_nil_iff.mp h.symm).2 hne
  | cons part parts ih =>
    have hcut : (∃ a', a = part.text ++ a' ∧ written parts = a' ++ b) ∨
        ∃ v, v ≠ [] ∧ part.text = a ++ v ∧ b = v ++ written parts := by
      rcases List.append_eq_append_iff.mp (h : part.text ++ written parts = a ++ b) with h | ⟨v, htext, hb⟩
      · exact Or.inl h
      · by_cases hv : v = []
        · subst hv
          exact Or.inl ⟨[], by rw [htext, List.append_nil, List.append_nil], hb.symm⟩
        · exact Or.inr ⟨v, hv, htext, hb⟩
    rcases hcut with ⟨a', rfl, hrest⟩ | ⟨v, hv, htext, hb⟩
    · obtain ⟨front, next, back, u, v, rfl, rfl, htext, hv, hb⟩ := ih hrest
      exact ⟨part :: front, next, back, u, v, rfl, by simp [written], htext, hv, hb⟩
    · exact ⟨[], part, parts, a, v, rfl, rfl, htext, hv, hb⟩

theorem InCode.of_split {front back : List Part} {code : Code} {u w : List Char} (h : code.text = u ++ text ++ w) :
    InCode (front ++ .code code :: back) (written front ++ u) text := by
  induction front with
  | nil => exact .here h
  | cons part front ih =>
    have hwritten : written (part :: front) ++ u = part.text ++ (written front ++ u) := by simp [written]
    rw [hwritten]
    exact .behind part ih

/-- A text of code characters that stands before the end of a piece of code, or of a quote or slash, ends there. -/
theorem exists_append_of_plain {head v t : List Char} (hplain : ∀ c ∈ head, isPlain c = true)
    (h : head ++ rest = v ++ t) (hends : (∃ c ∈ v, isPlain c = false) ∨ EndsCode t) : ∃ w, v = head ++ w := by
  rcases List.append_eq_append_iff.mp h with ⟨w, hv, -⟩ | ⟨w, rfl, rfl⟩
  · exact ⟨w, hv⟩
  · obtain ⟨hv, hw⟩ := List.forall_mem_append.mp hplain
    rcases hends with ⟨c, hc, hquote⟩ | hends
    · rw [hv c hc] at hquote
      cases hquote
    · cases w with
      | nil => exact ⟨[], by simp⟩
      | cons c cs =>
        have hquote := hends c rfl
        rw [hw c List.mem_cons_self] at hquote
        cases hquote

theorem not_isCellStart_of_head? {part : Part} (h : ∀ code, part ≠ .code code) :
    ∀ c ∈ part.text.head?, isCellStart c = false := by
  cases part with
  | literal l =>
    intro c hc
    cases hc
    rcases isQuote_iff.mp l.isQuote with hquote | hquote | hquote <;> rw [hquote] <;> decide
  | blockComment b => intro c hc; cases hc; decide
  | lineComment l => intro c hc; cases hc; decide
  | slash => intro c hc; cases hc; decide
  | code c => exact absurd rfl (h c)

/-- A literal, a comment between two marks or a slash ends with a character that is none of code. -/
theorem exists_mem_of_text_eq {part : Part} {u v : List Char} (hcode : ∀ code, part ≠ .code code)
    (hline : ∀ l, part ≠ .lineComment l) (h : part.text = u ++ v) (hv : v ≠ []) : ∃ c ∈ v, isPlain c = false := by
  have hlast : ∃ front c, part.text = front ++ [c] ∧ isPlain c = false := by
    cases part with
    | literal l => exact ⟨l.quote :: l.body, l.quote, rfl, by rw [isPlain, l.isQuote]; rfl⟩
    | blockComment b => exact ⟨'/' :: '*' :: b.body ++ ['*'], '/', by simp [Part.text], by decide⟩
    | lineComment l => exact absurd rfl (hline l)
    | slash => exact ⟨[], '/', rfl, by decide⟩
    | code c => exact absurd rfl (hcode c)
  obtain ⟨front, c, htext, hc⟩ := hlast
  refine ⟨c, ?_, hc⟩
  have hgetLast : (u ++ v).getLast? = some c := by rw [← h, htext, List.getLast?_concat]
  rw [List.getLast?_append_of_ne_nil _ hv] at hgetLast
  exact List.mem_of_getLast? hgetLast

theorem not_mem_text_lineComment (l : LineComment) : '\n' ∉ (Part.lineComment l).text := by
  simpa [Part.text] using l.inLine

/-- What opens a named block at the start of a line begins in code. -/
theorem OpensInCode.exists_code (h : OpensInCode parts) {front : List Part} {part : Part} {u v t head name : List Char}
    (hpart : part ∈ parts) (htext : part.text = u ++ v) (hv : v ≠ []) (hhead : IsBlockHead head name)
    (hsplit : head ++ rest = v ++ t) (hstart : atLineStart (charBehind none (written front ++ u)) = true) :
    ∃ code, part = .code code := by
  by_contra hnone
  have hcode : ∀ code, part ≠ .code code := fun code hpart => hnone ⟨code, hpart⟩
  rcases List.eq_nil_or_concat' u with rfl | ⟨u, x, rfl⟩
  · -- a quote or a slash is no letter
    obtain ⟨-, first, hmem, hfirst⟩ := hhead.beginning []
    have hsame : first ∈ part.text.head? := by
      obtain ⟨d, ds, rfl⟩ := List.exists_cons_of_ne_nil hv
      obtain ⟨e, es, rfl⟩ := List.exists_cons_of_ne_nil (l := head) (by rintro rfl; cases hmem)
      cases hmem
      obtain ⟨rfl, -⟩ := List.cons.inj hsplit
      rw [htext]
      rfl
    rw [not_isCellStart_of_head? hcode first hsame] at hfirst
    cases hfirst
  · rw [← List.append_assoc, charBehind_append_singleton] at hstart
    obtain rfl : x = '\n' := by simpa [atLineStart] using hstart
    have hfeed : '\n' ∈ part.text := by simp [htext]
    have hline : ∀ l, part ≠ .lineComment l := by
      rintro l rfl
      exact not_mem_text_lineComment l hfeed
    have hverbatim : part.isVerbatim = true := by
      cases part with
      | slash => simp [Part.text] at hfeed
      | code c => exact absurd rfl (hcode c)
      | _ => rfl
    obtain ⟨w, rfl⟩ := exists_append_of_plain hhead.plain hsplit (Or.inl (exists_mem_of_text_eq hcode hline htext hv))
    exact h part hpart hverbatim u head name w (by simpa using htext) hhead

/-- Where named blocks are opened in code only, it is code that is replaced. -/
theorem OpensInCode.editsCode (h : OpensInCode parts) (hchain : parts.IsChain Part.MayPrecede) :
    EditsCode namedBlock none parts := by
  intro a b m hab hm
  obtain ⟨hstart, head, name, rest, hhead, rfl, rfl⟩ := exists_of_namedBlock hm
  obtain ⟨hbegin, first, hmem, hfirst⟩ := hhead.beginning " = async function* () \x7b".toList
  have hne : head ≠ [] := by
    rintro rfl
    cases hmem
  obtain ⟨front, part, back, u, v, rfl, rfl, htext, hv, hsplit⟩ := exists_part_at hab (by simp [hne])
  have hcode : InCode (front ++ part :: back) (written front ++ u) head := by
    obtain ⟨code, rfl⟩ := h.exists_code (by simp) htext hv hhead hsplit hstart
    have hends := endsCode_written (List.isChain_cons.mp hchain.right_of_append).1
    obtain ⟨w, rfl⟩ := exists_append_of_plain hhead.plain hsplit (Or.inr hends)
    exact .of_split (by rw [← List.append_assoc] at htext; exact htext)
  refine ⟨[], head, _, rest, rfl, rfl, hne, ?_, hbegin, by simpa using hcode⟩
  exact List.forall_mem_append.mpr ⟨hhead.plain_name, List.all_eq_true.mp (by decide)⟩

theorem OpensInCode.of_like {parts' : List Part} (h : OpensInCode parts) (hlike : List.Forall₂ Part.Like parts parts') :
    OpensInCode parts' := by
  intro part' hpart' hverbatim
  have hpart : part' ∈ parts := by
    clear h
    induction hlike with
    | nil => cases hpart'
    | cons hsame _ ih =>
      rcases List.mem_cons.mp hpart' with rfl | hmem
      · cases hsame with
        | same => exact List.mem_cons_self
        | code => cases hverbatim
      · exact List.mem_cons_of_mem _ (ih hmem)
  exact h part' hpart hverbatim

/-- Literals and comments stay as they are when a script is normalized, where what is replaced lies in code. -/
theorem exists_like_normalize (hchain : parts.IsChain Part.MayPrecede) (hinjects : InjectsInCode parts)
    (hopens : OpensInCode parts) : ∃ parts', List.Forall₂ Part.Like parts parts' ∧ parts'.IsChain Part.MayPrecede ∧
      normalize (.ofList (written parts)) = .ofList (written parts') := by
  obtain ⟨imported, himported, hrun₁⟩ := hinjects.editsCode.exists_like
  have hchain₁ := isChain_of_like himported hchain
  obtain ⟨opened, hopened, hrun₂⟩ := ((hopens.of_like himported).editsCode hchain₁).exists_like
  have hchain₂ := isChain_of_like hopened hchain₁
  obtain ⟨dropped, hdropped, hrun₃⟩ := exists_like_dropCellPrefixes hchain₂
  refine ⟨dropped, like_trans himported (like_trans hopened hdropped), isChain_of_like hdropped hchain₂, ?_⟩
  rw [normalize, String.toList_ofList, substitute, substitute, hrun₁, hrun₂, hrun₃]

end CellGraph.Script
