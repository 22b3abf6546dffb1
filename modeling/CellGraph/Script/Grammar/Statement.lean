import CellGraph.Script.Grammar.Assignment

/-!
# Statements

Statements and declarations other than imports and exports. Where a statement stands alone as a part of another one,
lexical declarations, classes and functions other than plain ones are refused.
-/

namespace CellGraph.Script

open Reader

/-- An expression in parentheses as the head of a statement. -/
def headExpression (p : Productions) (ctx : Context) : Reader Node := do
  expectMark "("
  let head ← expression p ctx.nested
  expectMark ")"
  return head

/-- Whether a word declares variables that need an initial value. -/
def needsValue (keyword : String) : Bool := keyword == "const" || keyword == "using"

/-- Whether a pattern takes a value apart. -/
def isCompound (pattern : Node) : Bool :=
  match pattern.kind with
  | .array _ | .object _ => true
  | _ => false

/-- One declared variable. Constants and compound patterns have an initial value unless the values come from a loop,
which shows in the token that follows. -/
def declarator (p : Productions) (ctx : Context) (keyword : String) (inLoop : Bool) : Reader Node := do
  let target ← p.bindingTarget ctx
  if ← eatMark "=" then return .mk .declarator [target, ← p.assignment ctx]
  let fromLoop ← do
    if inLoop then pure ((← atWord "of") || (← atWord "in")) else pure false
  require (fromLoop || !(needsValue keyword || isCompound target))
  return .mk .declarator [target]

/-- The variables of a declaration, after its keyword. -/
def declarators (p : Productions) (ctx : Context) (keyword : String) (inLoop : Bool) : Reader Node := do
  let first ← declarator p ctx keyword inLoop
  let rest ← repeated (do
    if ← eatMark "," then return some (← declarator p ctx keyword inLoop) else return none) p.depth
  return .mk (.variables keyword) (first :: rest)

/-- A declaration of variables as a statement. -/
def variableStatement (p : Productions) (ctx : Context) (place : Place) (keyword : String) : Reader Node := do
  require (place == .list || keyword == "var")
  let declaration ← declarators p ctx keyword false
  statementEnd
  return declaration

/-- Whether a token after `let` makes it a declaration in the head of a loop. -/
def startsBinding (token : Token) : Bool :=
  match token.kind with
  | .word word _ => word != "in" && word != "instanceof"
  | .mark mark => mark == "[" || mark == "\x7b"
  | _ => false

/-- Whether the word ahead, `using`, declares a resource: a name follows on its line. -/
def atUsing (ctx : Context) : Reader Bool := do
  if ← atWord "using" then
    return (← afterAhead).any fun next => ctx.isNameToken next && !next.onNewLine
  else return false

/-- Whether `await using` and a name are ahead on one line. -/
def atAwaitUsing (ctx : Context) : Reader Bool := do
  if ctx.hasAwait && (← atWord "await") then
    match ← afterAhead with
    | some next =>
      let follows := (Token.next? next.rest).any fun t => ctx.isNameToken t && !t.onNewLine
      return next.isWord "using" && !next.onNewLine && follows
    | none => return false
  else return false

/-- Whether a token after `let` makes it a name at the start of an expression. -/
def continuesLet (token : Token) : Bool :=
  match token.kind with
  | .mark mark =>
    mark == "=" || mark == "." || mark == "(" || updateOperators.contains mark ||
      (binaryOperators.any fun entry => entry.1 == mark && entry.2 ≥ 4)
  | .word word false => word == "in" || word == "instanceof"
  | _ => false

/-- An expression as a statement; a single name may turn out to be the label of a statement. -/
def expressionStatement (p : Productions) (ctx : Context) : Reader Node := do
  let value ← expression p ctx
  match value.kind with
  | .name label =>
    if ← eatMark ":" then return .mk (.labeled label) [← p.statement ctx .single]
    statementEnd
    return .mk .expression [value]
  | _ =>
    statementEnd
    return .mk .expression [value]

/-- A statement that starts with `let`, which may also be a name. -/
def letStatement (p : Productions) (ctx : Context) (place : Place) : Reader Node := do
  match ← afterAhead with
  | none => refuse
  | some next =>
    if continuesLet next then expressionStatement p ctx
    else if (place == .single && !next.isMark "[") || next.isMark ";" then
      advance
      statementEnd
      return .mk .expression [.leaf (.name "let")]
    else
      advance
      variableStatement p ctx place "let"

/-- The rest of a loop over the properties or the values of what stands on the right, from `in` or `of` on. -/
def eachRest (p : Productions) (ctx : Context) (isAwait : Bool) (target : Node) : Reader Node := do
  let values ←
    if ← eatWord "of" then p.assignment ctx.nested
    else do
      require !isAwait
      expectWord "in"
      expression p ctx.nested
  expectMark ")"
  return .mk .loop [target, values, ← p.statement ctx .single]

/-- The rest of a loop with a condition and an update, from the first semicolon on. -/
def countingRest (p : Productions) (ctx : Context) (start : List Node) : Reader Node := do
  expectMark ";"
  let condition ← if ← atMark ";" then pure [] else pure [← expression p ctx.nested]
  expectMark ";"
  let update ← if ← atMark ")" then pure [] else pure [← expression p ctx.nested]
  expectMark ")"
  return .mk .loop (start ++ condition ++ update ++ [← p.statement ctx .single])

/-- Whether a loop over values may start with this: not with `async` alone, and not with `let`. -/
def mayStartOf (first : Token) (target : Node) : Bool :=
  !first.isWord "let" && !(first.isWord "async" && target.kind == .name "async")

/-- A loop that starts with `for`. -/
def forStatement (p : Productions) (ctx : Context) : Reader Node := do
  expectWord "for"
  let isAwait ← if ctx.hasAwait then eatWord "await" else pure false
  expectMark "("
  let head := { ctx.nested with hasIn := false }
  let keyword ← do
    if ← eatWord "var" then pure (some "var")
    else if ← eatWord "const" then pure (some "const")
    else if (← atWord "let") && (← afterAhead).any startsBinding then do advance; pure (some "let")
    else if ← atAwaitUsing ctx then do advance; advance; pure (some "using")
    else if (← atUsing ctx) && !(← afterAhead).any (Token.isWord · "of") then do advance; pure (some "using")
    else pure none
  match keyword with
  | some keyword => do
    let declaration ← declarators p head keyword true
    if (← atWord "of") || (← atWord "in") then eachRest p ctx isAwait declaration
    else
      require !isAwait
      countingRest p ctx [declaration]
  | none => do
    if ← atMark ";" then
      require !isAwait
      countingRest p ctx []
    else
      let first ← ahead
      let start ← expression p head
      if ← atWord "of" then
        require (mayStartOf first start || (isAwait && !first.isWord "let"))
        asPattern start
        eachRest p ctx isAwait start
      else if ← atWord "in" then
        asPattern start
        eachRest p ctx isAwait start
      else
        require !isAwait
        countingRest p ctx [start]

/-- A `continue` or `break` with the label that may follow on its line. -/
def jumpStatement (ctx : Context) : Reader Node := do
  advance
  let token ← ahead
  if ctx.isNameToken token && !token.onNewLine then
    advance
    statementEnd
    return .leaf .jump
  else
    statementEnd
    return .leaf .jump

/-- A `return` with the value that may follow on its line. -/
def returnStatement (p : Productions) (ctx : Context) : Reader Node := do
  require ctx.hasReturn
  advance
  let token ← ahead
  let ends := token.onNewLine || token.isMark ";" || token.isMark "\x7d" || token.kind == .finish
  let value ← if ends then pure [] else pure [← expression p ctx.nested]
  statementEnd
  return .mk .returned value

/-- A `throw` with its value, which starts on the same line. -/
def throwStatement (p : Productions) (ctx : Context) : Reader Node := do
  advance
  require !(← ahead).onNewLine
  let value ← expression p ctx.nested
  statementEnd
  return .mk .thrown [value]

/-- The condition and the two outcomes of an `if`. -/
def ifStatement (p : Productions) (ctx : Context) : Reader Node := do
  advance
  let condition ← headExpression p ctx
  let positive ← p.statement ctx .single
  let negative ← if ← eatWord "else" then pure [← p.statement ctx .single] else pure []
  return .mk .conditionalStatement (condition :: positive :: negative)

/-- A loop whose condition stands at its end, where a semicolon may be left out. -/
def doStatement (p : Productions) (ctx : Context) : Reader Node := do
  advance
  let body ← p.statement ctx .single
  expectWord "while"
  let condition ← headExpression p ctx
  let _ ← eatMark ";"
  return .mk .loop [body, condition]

/-- A case of a `switch`: its value, unless it is the default, and its statements. -/
def switchCase (p : Productions) (ctx : Context) : Reader (Option Node) := do
  if ← atMark "\x7d" then return none
  let value ← do
    if ← eatWord "default" then pure []
    else do expectWord "case"; pure [← expression p ctx.nested]
  expectMark ":"
  let body ← repeated (do
    if (← atMark "\x7d") || (← atWord "case") || (← atWord "default") then return none
    else return some (← p.statement ctx .list)) p.depth
  return some (.mk .switchCase (value ++ body))

/-- A `switch` with its cases. -/
def switchStatement (p : Productions) (ctx : Context) : Reader Node := do
  advance
  let value ← headExpression p ctx
  expectMark "\x7b"
  let cases ← repeated (switchCase p ctx) p.depth
  expectMark "\x7d"
  return .mk .switch (value :: cases)

/-- A block with a handler, a final block, or both. -/
def tryStatement (p : Productions) (ctx : Context) : Reader Node := do
  advance
  let body ← block p ctx
  let handler ← do
    if ← eatWord "catch" then
      let param ← do
        if ← eatMark "(" then
          let target ← p.bindingTarget ctx
          expectMark ")"
          pure [target]
        else pure []
      pure [Node.mk .handler (param ++ [← block p ctx])]
    else pure []
  let final ← if ← eatWord "finally" then pure [← block p ctx] else pure []
  require !(handler.isEmpty && final.isEmpty)
  return .mk .guarded (body :: handler ++ final)

/-- A declaration of a function; one that stands alone is plain. -/
def functionStatement (p : Productions) (ctx : Context) (place : Place) (nameOptional : Bool) : Reader Node := do
  let isAsync ← eatWord "async"
  let isGenerator := (← afterAhead).any (Token.isMark · "*")
  require (place == .list || !(isAsync || isGenerator))
  functionDefinition p ctx false nameOptional isAsync

/-- A statement that starts with a keyword, if one does. -/
def keywordStatement? (p : Productions) (ctx : Context) (place : Place) (word : String) :
    Option (Reader Node) :=
  match word with
  | "if" => some (ifStatement p ctx)
  | "do" => some (doStatement p ctx)
  | "while" => some do
    advance
    let condition ← headExpression p ctx
    return .mk .loop [condition, ← p.statement ctx .single]
  | "for" => some (forStatement p ctx)
  | "continue" | "break" => some (jumpStatement ctx)
  | "with" => some do
    advance
    let object ← headExpression p ctx
    return .mk .scoped [object, ← p.statement ctx .single]
  | "switch" => some (switchStatement p ctx)
  | "throw" => some (throwStatement p ctx)
  | "try" => some (tryStatement p ctx)
  | "debugger" => some do
    advance
    statementEnd
    return .leaf .debugger
  | "return" => some (returnStatement p ctx)
  | "class" => some do
    require (place == .list)
    classDefinition p ctx false []
  | "function" => some (functionStatement p ctx place false)
  | "var" | "const" => some do
    advance
    variableStatement p ctx place word
  | "let" => some (letStatement p ctx place)
  | _ => none

end CellGraph.Script
