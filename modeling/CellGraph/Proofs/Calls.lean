import CellGraph.Script.Extraction
import Mathlib.Logic.Basic

/-!
# Reading a call that is assigned to a name

One lemma for each production on the way from a statement to a literal: what it takes (`Takes`) where a name or a text
begins an operand (`StartsOperand`) and nothing goes on with it (`closers`). Together they read a script that assigns to
a name what a function returns for a text (`takes_program`).
-/

namespace CellGraph.Script

open Reader

/-- Whether a reader, with one token ahead, reads a value and has another token ahead then. It counts no shorthand
default in or out. -/
def Takes {α : Type} (reader : Reader α) (token : Token) (value : α) (next : Token) : Prop :=
  ∀ k, reader ⟨token, k⟩ = some (value, ⟨next, k⟩)

variable {α β : Type} {p : Productions} {ctx : Context} {token next closing : Token} {mark word value : String}
  {node function argument : Node}

/-- Whether `next` is the token behind a token. -/
def Token.Precedes (token next : Token) : Prop := Token.next? token.rest = some next

namespace Reader

@[simp] theorem bind_apply (reader : Reader α) (f : α → Reader β) (cursor : Cursor) :
    (reader >>= f) cursor = (reader cursor).bind fun result => f result.1 result.2 := rfl

@[simp] theorem map_apply (f : α → β) (reader : Reader α) (cursor : Cursor) :
    (f <$> reader) cursor = (reader cursor).bind fun result => some (f result.1, result.2) := rfl

@[simp] theorem pure_apply (a : α) (cursor : Cursor) : (pure a : Reader α) cursor = some (a, cursor) := rfl

end Reader

theorem Takes.bind {reader : Reader α} {f : α → Reader β} {a : α} {b : β} {middle : Token}
    (h : Takes reader token a middle)
    (hf : Takes (f a) middle b next) : Takes (reader >>= f) token b next := by
  intro k
  show (reader ⟨token, k⟩).bind _ = _
  rw [h k]
  exact hf k

/-! ## Marks and words -/

theorem takes_eatMark (h : token.isMark mark = true) (hnext : token.Precedes next) :
    Takes (eatMark mark) token true next := by
  intro k
  have hnext : Token.next? token.rest = some next := hnext
  simp [eatMark, atMark, ahead, advance, h, hnext]

theorem takes_eatMark_of_not (h : token.isMark mark = false) : Takes (eatMark mark) token false token := by
  intro k
  simp [eatMark, atMark, ahead, h]

theorem takes_expectMark (h : token.isMark mark = true) (hnext : token.Precedes next) :
    Takes (expectMark mark) token () next := by
  intro k
  simp [expectMark, takes_eatMark h hnext k, require]

/-- Words that are names only in some places. -/
def softWords : List String := ["async", "await", "yield", "let", "using"]

/-- Whether a word is a name wherever it stands, and nothing else. -/
def IsOrdinary (word : String) : Prop := word ∉ reservedWords ++ softWords

instance : DecidablePred IsOrdinary := fun word => inferInstanceAs (Decidable (word ∉ reservedWords ++ softWords))

theorem IsOrdinary.ne (h : IsOrdinary word) {other : String} (hother : other ∈ reservedWords ++ softWords) :
    word ≠ other := by
  rintro rfl
  exact h hother

theorem IsOrdinary.isName (h : IsOrdinary word) (ctx : Context) : ctx.isName word = true := by
  have hreserved : word ∉ reservedWords := fun hmem => h (List.mem_append_left _ hmem)
  have hawait : word ≠ "await" := h.ne (by decide)
  have hyield : word ≠ "yield" := h.ne (by decide)
  simp [Context.isName, hreserved, hawait, hyield]

theorem IsOrdinary.isWord_eq_false (h : IsOrdinary word) (hkind : token.kind = .word word false) {other : String}
    (hother : other ∈ reservedWords ++ softWords) : token.isWord other = false := by
  simp [Token.isWord, hkind, h.ne hother]

theorem takes_name (hkind : token.kind = .word word false) (hword : IsOrdinary word) (hnext : token.Precedes next) :
    Takes (name ctx) token word next := by
  intro k
  have hnext : Token.next? token.rest = some next := hnext
  simp [name, anyWord, ahead, advance, require, hkind, hnext, hword.isName ctx]

/-! ## Operands -/

theorem takes_primary_text (hkind : token.kind = .text value) (hnext : token.Precedes next) :
    Takes (primary p ctx) token (.leaf (.string value)) next := by
  intro k
  have hnext : Token.next? token.rest = some next := hnext
  simp [primary, ahead, advance, hkind, hnext]

theorem takes_primary_name (hkind : token.kind = .word word false) (hword : IsOrdinary word)
    (hnext : token.Precedes next) :
    Takes (primary p ctx) token (.leaf (.name word)) next := by
  intro k
  have hasync : token.isWord "async" = false := hword.isWord_eq_false hkind (by decide)
  have hname : Takes (name ctx) token word next := takes_name hkind hword hnext
  have hexpression : wordExpression p ctx word ⟨token, k⟩ = some (.leaf (.name word), ⟨next, k⟩) := by
    unfold wordExpression
    split
    case h_10 => simp [atAsyncFunction, atWord, ahead, hasync, hname k]
    all_goals exact absurd rfl (hword.ne (by decide))
  simp [primary, ahead, hkind, hexpression]

/-- Tokens that may stand behind an operand and do not go on with it. -/
def closers : List TokenKind := [.mark "=", .mark ")", .finish]

theorem kind_of_mem_closers (h : token.kind ∈ closers) :
    token.kind = .mark "=" ∨ token.kind = .mark ")" ∨ token.kind = .finish := by simpa [closers] using h

theorem takes_accesses (h : token.kind ∈ closers) (object : Node) (depth : Nat) :
    Takes (accesses p ctx true object false (depth + 1)) token object token := by
  intro k
  rcases kind_of_mem_closers h with h | h | h <;>
    simp [accesses, eatMark, atMark, atTemplate, Token.isMark, ahead, h]

/-- A primary expression that nothing goes on with is a whole left-hand side. -/
theorem takes_leftHandSide (hprimary : Takes (primary p ctx) token node next) (hnext : next.kind ∈ closers)
    (hdepth : 0 < p.depth) : Takes (leftHandSide p ctx) token node next := by
  obtain ⟨depth, hdepth⟩ := Nat.exists_eq_add_one_of_ne_zero (Nat.ne_of_gt hdepth)
  rw [leftHandSide, hdepth]
  exact hprimary.bind (takes_accesses hnext node depth)

/-- Whether an operand may start with a token that means nothing more: a text, or a name. -/
def StartsOperand (token : Token) : Prop :=
  (∃ value, token.kind = .text value) ∨ ∃ word, token.kind = .word word false ∧ IsOrdinary word

theorem StartsOperand.isMark_eq_false (h : StartsOperand token) (mark : String) : token.isMark mark = false := by
  rcases h with ⟨value, h⟩ | ⟨word, h, -⟩ <;> simp [Token.isMark, h]

theorem StartsOperand.isWord_eq_false (h : StartsOperand token) {other : String}
    (hother : other ∈ reservedWords ++ softWords) : token.isWord other = false := by
  rcases h with ⟨value, h⟩ | ⟨word, h, hword⟩
  · simp [Token.isWord, h]
  · exact hword.isWord_eq_false h hother

theorem takes_unaryExpression (hstart : StartsOperand token) (hread : Takes (leftHandSide p ctx) token node next)
    (hnext : next.kind ∈ closers) : Takes (unaryExpression p ctx) token node next := by
  intro k
  have hpostfixed : unaryExpression.postfixed p ctx ⟨token, k⟩ = some (node, ⟨next, k⟩) := by
    rcases kind_of_mem_closers hnext with h | h | h <;>
      simp [unaryExpression.postfixed, hread k, ahead, h]
  rcases hstart with ⟨value, h⟩ | ⟨word, h, hword⟩
  · simp [unaryExpression, ahead, h, hpostfixed]
  · have hdelete : word ≠ "delete" := hword.ne (by decide)
    have htypeof : word ≠ "typeof" := hword.ne (by decide)
    have hvoid : word ≠ "void" := hword.ne (by decide)
    have hawait : word ≠ "await" := hword.ne (by decide)
    simp [unaryExpression, ahead, h, hdelete, htypeof, hvoid, hawait, hpostfixed]

theorem takes_binaryExpression (hstart : StartsOperand token) (hread : Takes (leftHandSide p ctx) token node next)
    (hnext : next.kind ∈ closers) (hdepth : 0 < p.depth) : Takes (binaryExpression p ctx) token node next := by
  have hoperand : Takes (operand p ctx []) token node next := by
    intro k
    have hunary := takes_unaryExpression hstart hread hnext k
    rcases hstart with ⟨value, h⟩ | ⟨word, h, hword⟩ <;> simp [operand, ahead, h, hunary]
  have hoperator : operator? ctx next = none := by
    rcases kind_of_mem_closers hnext with h | h | h <;> simp [operator?, binaryOperators, h]
  obtain ⟨depth, hdepth⟩ := Nat.exists_eq_add_one_of_ne_zero (Nat.ne_of_gt hdepth)
  rw [binaryExpression, hdepth]
  refine hoperand.bind fun k => ?_
  simp [binaryRest, ahead, hoperator, reduce?]

/-! ## Assignments and calls -/

theorem takes_arrowFunction? (hstart : StartsOperand token) : Takes (arrowFunction? p ctx) token none token := by
  intro k
  have hparenthesis := hstart.isMark_eq_false "("
  have hasync : token.isWord "async" = false := hstart.isWord_eq_false (by decide)
  simp [arrowFunction?, atMark, atWord, ahead, hparenthesis, hasync]

/-- An operand that nothing is assigned to. -/
theorem takes_assignment (hstart : StartsOperand token) (hread : Takes (leftHandSide p ctx) token node next)
    (hnext : next.kind = .mark ")" ∨ next.kind = .finish) (hdepth : 0 < p.depth) :
    Takes (assignment p ctx) token node next := by
  intro k
  have hcloser : next.kind ∈ closers := by rcases hnext with h | h <;> simp [closers, h]
  have hleft := takes_binaryExpression hstart hread hcloser hdepth k
  have harrow : Takes (arrowFunction? p ctx) token none token := takes_arrowFunction? hstart
  have hyield : token.isWord "yield" = false := hstart.isWord_eq_false (by decide)
  rcases hnext with h | h <;>
    simp [assignment, atWord, atMark, eatMark, Token.isMark, ahead, hyield, harrow k, hleft, h, updateOperators,
      conditionalRest]

/-- What is assigned to a name. -/
theorem takes_assignment_name {equals first : Token} (hstart : StartsOperand token)
    (hread : Takes (leftHandSide p ctx) token (.leaf (.name word)) equals) (hequals : equals.kind = .mark "=")
    (hfirst : equals.Precedes first) (hright : Takes (p.assignment ctx) first node next) (hdepth : 0 < p.depth) :
    Takes (assignment p ctx) token (.mk (.assignment "=") [.leaf (.name word), node]) next := by
  intro k
  have hcloser : equals.kind ∈ closers := by simp [closers, hequals]
  have hleft := takes_binaryExpression hstart hread hcloser hdepth k
  have harrow : Takes (arrowFunction? p ctx) token none token := takes_arrowFunction? hstart
  have hyield : token.isWord "yield" = false := hstart.isWord_eq_false (by decide)
  have hfirst : Token.next? equals.rest = some first := hfirst
  simp [assignment, atWord, ahead, advance, hyield, harrow k, hleft, hequals, hfirst, hright k, asPattern,
    closeDefaults, Node.patternDefaults?, Node.isSimpleTarget, Node.kind]

/-- A single item up to a closing mark. -/
theorem takes_separated {item : Reader Node} {close : String} (hfirst : token.isMark close = false)
    (hitem : Takes item token node closing) (hclosing : closing.isMark "," = false) (depth : Nat) :
    Takes (separated item close (depth + 1)) token ([node], false) closing := by
  intro k
  have hcomma := takes_eatMark_of_not hclosing k
  simp [separated, atMark, ahead, hfirst, hitem k, hcomma]

/-- A single argument in parentheses. -/
theorem takes_arguments {first : Token} (hopening : token.kind = .mark "(") (hfirst : token.Precedes first)
    (hstart : StartsOperand first) (hargument : Takes (p.assignment ctx.nested) first argument closing)
    (hclosing : closing.kind = .mark ")") (hnext : closing.Precedes next) (hdepth : 0 < p.depth) :
    Takes (arguments p ctx) token [argument] next := by
  have hitem : Takes (spreadable p ctx.nested) first argument closing :=
    (takes_eatMark_of_not (hstart.isMark_eq_false "...")).bind hargument
  have hnoComma : closing.isMark "," = false := by simp [Token.isMark, hclosing]
  have hopen : token.isMark "(" = true := by simp [Token.isMark, hopening]
  have hclose : closing.isMark ")" = true := by simp [Token.isMark, hclosing]
  obtain ⟨depth, hdepth⟩ := Nat.exists_eq_add_one_of_ne_zero (Nat.ne_of_gt hdepth)
  rw [arguments, hdepth]
  refine (takes_expectMark hopen hfirst).bind ?_
  refine (takes_separated (hstart.isMark_eq_false ")") hitem hnoComma depth).bind ?_
  exact (takes_expectMark hclose hnext).bind fun k => rfl

/-- A call with a single argument. -/
theorem takes_call {opening first : Token} (hfunction : Takes (primary p ctx) token function opening)
    (hopening : opening.kind = .mark "(") (hfirst : opening.Precedes first) (hstart : StartsOperand first)
    (hargument : Takes (p.assignment ctx.nested) first argument closing) (hclosing : closing.kind = .mark ")")
    (hnext : closing.Precedes next) (hcloser : next.kind ∈ closers) (hdepth : 1 < p.depth) :
    Takes (leftHandSide p ctx) token (.mk .call [function, argument]) next := by
  have harguments := takes_arguments hopening hfirst hstart hargument hclosing hnext (Nat.lt_of_succ_lt hdepth)
  obtain ⟨depth, hdepth⟩ : ∃ depth, p.depth = depth + 2 := ⟨p.depth - 2, by omega⟩
  rw [leftHandSide, hdepth]
  refine hfunction.bind fun k => ?_
  have hrest : Takes (accesses p ctx true (.mk .call [function, argument]) false (depth + 1)) next _ next :=
    takes_accesses hcloser _ depth
  rw [accesses]
  simp [eatMark, atMark, atTemplate, Token.isMark, ahead, hopening, harguments k, hrest k]

/-! ## Statements -/

/-- An expression without commas. -/
theorem takes_expression (hread : Takes (p.assignment ctx) token node next) (hnext : next.isMark "," = false)
    (hdepth : 0 < p.depth) : Takes (expression p ctx) token node next := by
  obtain ⟨depth, hdepth⟩ := Nat.exists_eq_add_one_of_ne_zero (Nat.ne_of_gt hdepth)
  rw [expression, hdepth]
  refine hread.bind fun k => ?_
  simp [repeated, takes_eatMark_of_not hnext k]

/-- An assignment as the last statement. -/
theorem takes_expressionStatement {operator : String} {parts : List Node}
    (hread : Takes (expression p ctx) token (.mk (.assignment operator) parts) next) (hnext : next.kind = .finish) :
    Takes (expressionStatement p ctx) token (.mk .expression [.mk (.assignment operator) parts]) next := by
  have hend : Takes statementEnd next () next := by
    intro k
    have hsemicolon : next.isMark ";" = false := by simp [Token.isMark, hnext]
    simp [statementEnd, takes_eatMark_of_not hsemicolon k, ahead, require, hnext]
  rw [expressionStatement]
  exact hread.bind (hend.bind fun k => rfl)

theorem keywordStatement?_of_isOrdinary (hword : IsOrdinary word) (place : Place) :
    keywordStatement? p ctx place word = none := by
  unfold keywordStatement?
  split
  case h_18 => rfl
  all_goals exact absurd rfl (hword.ne (by decide))

/-- A statement that begins with a name is an expression. -/
theorem takes_statement (hkind : token.kind = .word word false) (hword : IsOrdinary word)
    (hread : Takes (expressionStatement p ctx) token node next) (place : Place) :
    Takes (statement p ctx place) token node next := by
  intro k
  have hexport : word ≠ "export" := hword.ne (by decide)
  have himport : word ≠ "import" := hword.ne (by decide)
  have hasync : token.isWord "async" = false := hword.isWord_eq_false hkind (by decide)
  have husing : token.isWord "using" = false := hword.isWord_eq_false hkind (by decide)
  have hawait : token.isWord "await" = false := hword.isWord_eq_false hkind (by decide)
  simp [statement, wordStatement, keywordStatement?_of_isOrdinary hword, hexport, himport, atImportExpression,
    afterAhead, atAsyncFunction, atUsing, atAwaitUsing, atWord, ahead, hkind, hasync, husing, hawait, hread k]

@[simp] theorem depth_productions (n : Nat) : (productions n).depth = n := by
  induction n with
  | zero => rfl
  | succ n ih => exact congrArg (· + 1) ih

/-- The tree of a script that assigns to a name what a function returns for a text. -/
def attachedTree (target function value : String) : Node :=
  .mk .program [.mk .expression [.mk (.assignment "=")
    [.leaf (.name target), .mk .call [.leaf (.name function), .leaf (.string value)]]]]

/-- Such a script is read from its tokens. -/
theorem takes_program {target function : String} {t₀ t₁ t₂ t₃ t₄ t₅ t₆ : Token} (n : Nat) (htarget : IsOrdinary target)
    (hfunction : IsOrdinary function) (h₀ : t₀.kind = .word target false) (h₁ : t₁.kind = .mark "=")
    (h₂ : t₂.kind = .word function false) (h₃ : t₃.kind = .mark "(") (h₄ : t₄.kind = .text value)
    (h₅ : t₅.kind = .mark ")") (h₆ : t₆.kind = .finish) (h₀₁ : t₀.Precedes t₁) (h₁₂ : t₁.Precedes t₂)
    (h₂₃ : t₂.Precedes t₃)
    (h₃₄ : t₃.Precedes t₄) (h₄₅ : t₄.Precedes t₅) (h₅₆ : t₅.Precedes t₆) :
    Takes (program (productions (n + 5))) t₀ (attachedTree target function value) t₆ := by
  have hcloser₁ : t₁.kind ∈ closers := by simp [closers, h₁]
  have hcloser₅ : t₅.kind ∈ closers := by simp [closers, h₅]
  have hcloser₆ : t₆.kind ∈ closers := by simp [closers, h₆]
  have hvalue : Takes ((productions (n + 2)).assignment Context.top.nested) t₄ (.leaf (.string value)) t₅ :=
    takes_assignment (Or.inl ⟨value, h₄⟩) (takes_leftHandSide (takes_primary_text h₄ h₄₅) hcloser₅ (by simp))
      (Or.inl h₅)
      (by simp)
  have hcall : Takes ((productions (n + 3)).assignment .top) t₂
      (.mk .call [.leaf (.name function), .leaf (.string value)]) t₆ :=
    takes_assignment (Or.inr ⟨function, h₂, hfunction⟩)
      (takes_call (takes_primary_name h₂ hfunction h₂₃) h₃ h₃₄ (Or.inl ⟨value, h₄⟩) hvalue h₅ h₅₆ hcloser₆ (by simp))
      (Or.inr h₆) (by simp)
  have hassignment : Takes ((productions (n + 4)).assignment .top) t₀ (.mk (.assignment "=")
      [.leaf (.name target), .mk .call [.leaf (.name function), .leaf (.string value)]]) t₆ :=
    takes_assignment_name (Or.inr ⟨target, h₀, htarget⟩)
      (takes_leftHandSide (takes_primary_name h₀ htarget h₀₁) hcloser₁ (by simp)) h₁ h₁₂ hcall (by simp)
  have hexpression := takes_expression hassignment (by simp [Token.isMark, h₆]) (by simp)
  have hstatement : Takes ((productions (n + 5)).statement .top .list) t₀ _ t₆ :=
    takes_statement h₀ htarget (takes_expressionStatement hexpression h₆) .list
  intro k
  simp [program, repeated, ahead, h₀, h₆, hstatement k, attachedTree]

end CellGraph.Script
