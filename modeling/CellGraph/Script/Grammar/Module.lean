import CellGraph.Script.Grammar.Statement

/-!
# Imports, exports and whole scripts

Import and export declarations, which may stand wherever a statement may, and the statement production that chooses
among all of them. `productions` ties the knot, and `parse?` reads a whole script: every token has to be used, every
shorthand default has to have a meaning, and no name is exported twice.
-/

namespace CellGraph.Script

open Reader

/-- Attributes after the source of an import or export. -/
def importAttributes (depth : Nat) : Reader Unit := do
  let token ← ahead
  if token.isWord "with" || (token.isWord "assert" && !token.onNewLine) then
    advance
    expectMark "\x7b"
    let entry : Reader Node := do
      match (← ahead).kind with
      | .word _ _ | .text _ => advance
      | _ => refuse
      expectMark ":"
      return .leaf (.string (← string))
    let _ ← separated entry "\x7d" depth
    expectMark "\x7d"

/-- The source of an import or export, with its attributes and the end of the statement. -/
def sourceRest (depth : Nat) : Reader String := do
  let source ← string
  importAttributes depth
  statementEnd
  return source

/-- The name of something imported or exported: a word or a string. -/
def externalName : Reader String := do
  match (← ahead).kind with
  | .word word _ => do advance; return word
  | .text value => do advance; return value
  | _ => refuse

/-- One imported name. Without a second name it is a name of the script itself. -/
def importSpecifier (ctx : Context) : Reader Node := do
  let token ← ahead
  let external ← externalName
  if ← eatWord "as" then return .leaf (.name (← name ctx))
  require (ctx.isNameToken token)
  return .leaf (.name external)

/-- What an import declaration brings in besides a default: everything under one name, or a list of names. -/
def importedNames (depth : Nat) (ctx : Context) : Reader Unit := do
  if ← eatMark "*" then
    expectWord "as"
    let _ ← name ctx
  else
    expectMark "\x7b"
    let _ ← separated (importSpecifier ctx) "\x7d" depth
    expectMark "\x7d"

/-- Whether the word ahead, `source`, is the phase of an import: a name follows that is not the word before the
source itself. -/
def atSourcePhase (ctx : Context) : Reader Bool := do
  if ← atWord "source" then
    match ← afterAhead with
    | some next =>
      let fromFollows := (Token.next? next.rest).any (Token.isWord · "from")
      return ctx.isNameToken next && (!next.isWord "from" || fromFollows)
    | none => return false
  else return false

/-- What stands between `import` and its source. -/
def importClause (depth : Nat) (ctx : Context) : Reader Unit := do
  if ← atSourcePhase ctx then
    advance
    let _ ← name ctx
  else if (← atWord "defer") && (← afterAhead).any (Token.isMark · "*") then
    advance
    importedNames depth ctx
  else if ctx.isNameToken (← ahead) then
    advance
    if ← eatMark "," then importedNames depth ctx
  else importedNames depth ctx
  expectWord "from"

/-- An import declaration. -/
def importDeclaration (depth : Nat) (ctx : Context) : Reader Node := do
  expectWord "import"
  match (← ahead).kind with
  | .text _ => return .leaf (.importDeclaration (← sourceRest depth))
  | _ => do
    importClause depth ctx
    return .leaf (.importDeclaration (← sourceRest depth))

/-- One exported name: its part says whether it can be a name of the script itself, its kind under which name it is
exported. -/
def exportSpecifier (ctx : Context) : Reader Node := do
  let token ← ahead
  let inner ← externalName
  let own := match token.kind with
    | .word word _ => !reservedWords.contains word && ctx.isName word
    | _ => false
  let outer ← if ← eatWord "as" then externalName else pure inner
  return .mk (.name outer) (if own then [] else [.leaf .key])

/-- The names a list of export specifiers exports. -/
def specifierNames (specifiers : List Node) : List String := specifiers.flatMap Node.boundNames

/-- An export of names in braces, of the script itself or of another module. -/
def exportList (depth : Nat) (ctx : Context) : Reader Node := do
  expectMark "\x7b"
  let (specifiers, _) ← separated (exportSpecifier ctx) "\x7d" depth
  expectMark "\x7d"
  if ← eatWord "from" then
    return .leaf (.exportNamed (some (← sourceRest depth)) (specifierNames specifiers))
  require (specifiers.all fun specifier => specifier.parts.isEmpty)
  statementEnd
  return .leaf (.exportNamed none (specifierNames specifiers))

/-- An export of everything another module exports. -/
def exportEverything (depth : Nat) : Reader Node := do
  expectMark "*"
  let outer ← if ← eatWord "as" then pure (some (← externalName)) else pure none
  expectWord "from"
  return .leaf (.exportAll (← sourceRest depth) outer)

/-- A default export, after the word `default`. -/
def exportDefault (p : Productions) (ctx : Context) (decorating : List Node) : Reader Node := do
  if (← atWord "class") || (← atMark "@") then
    let more ← decorators p ctx
    return .mk .exportDefault [← classDefinition p ctx true (decorating ++ more)]
  require decorating.isEmpty
  if (← atWord "function") || (← atAsyncFunction) then
    return .mk .exportDefault [← functionStatement p ctx .list true]
  let value ← p.assignment ctx
  statementEnd
  return .mk .exportDefault [value]

/-- The names that a declaration binds. -/
def declaredNames (declaration : Node) : List String :=
  match declaration.kind with
  | .variables _ => Node.boundNamesAll declaration.parts
  | _ => declaration.parts.findSome? (fun part =>
      match part.kind with
      | .name name => some name
      | _ => none) |>.toList

/-- An export of a declaration. -/
def exportedDeclaration (p : Productions) (ctx : Context) (decorating : List Node) : Reader Node := do
  let declaration ←
    if (← atWord "class") || (← atMark "@") then do
      let more ← decorators p ctx
      classDefinition p ctx false (decorating ++ more)
    else do
      require decorating.isEmpty
      if (← atWord "function") || (← atAsyncFunction) then functionStatement p ctx .list false
      else do
        let keyword ← anyWord
        require (keyword == "var" || keyword == "let" || keyword == "const")
        variableStatement p ctx .list keyword
  return .mk (.exportNamed none (declaredNames declaration)) [declaration]

/-- An export declaration, after the decorators of the class it may export. -/
def exportDeclaration (p : Productions) (ctx : Context) (decorating : List Node) : Reader Node := do
  expectWord "export"
  if (← atMark "*") && decorating.isEmpty then exportEverything p.depth
  else if (← atMark "\x7b") && decorating.isEmpty then exportList p.depth ctx
  else if ← eatWord "default" then exportDefault p ctx decorating
  else exportedDeclaration p ctx decorating

/-- Whether `import` starts an expression here: a point or a parenthesis follows. -/
def atImportExpression : Reader Bool := do
  return (← afterAhead).any fun next => next.isMark "." || next.isMark "("

/-- A statement that starts with a word. -/
def wordStatement (p : Productions) (ctx : Context) (place : Place) (word : String) : Reader Node := do
  match keywordStatement? p ctx place word with
  | some reader => reader
  | none =>
    if word == "export" then exportDeclaration p ctx []
    else if word == "import" && !(← atImportExpression) then importDeclaration p.depth ctx
    else if ← atAsyncFunction then functionStatement p ctx place false
    else if ← atUsing ctx then do advance; variableStatement p ctx place "using"
    else if ← atAwaitUsing ctx then do advance; advance; variableStatement p ctx place "using"
    else expressionStatement p ctx

/-- A statement or declaration. -/
def statement (p : Productions) (ctx : Context) (place : Place) : Reader Node := do
  match (← ahead).kind with
  | .mark "\x7b" => block p ctx
  | .mark ";" => do advance; return .leaf .empty
  | .mark "@" => do
    let decorating ← decorators p ctx
    if ← atWord "export" then exportDeclaration p ctx decorating
    else
      require (place == .list)
      classDefinition p ctx false decorating
  | .word word false => wordStatement p ctx place word
  | _ => expressionStatement p ctx

/-- The productions one level of nesting deeper. -/
def deeperProductions (p : Productions) : Productions where
  depth := p.depth + 1
  assignment := assignment p
  unary := unaryExpression p
  member := memberExpression p
  leftHandSide := leftHandSide p
  bindingTarget := bindingTarget p
  statement := statement p

/-- The productions of a depth: at depth zero nothing is read. -/
def productions : Nat → Productions
  | 0 => ⟨0, fun _ => refuse, fun _ => refuse, fun _ => refuse, fun _ => refuse, fun _ => refuse,
      fun _ _ => refuse⟩
  | depth + 1 => deeperProductions (productions depth)

/-- A script from its first token to its end. -/
def program (p : Productions) : Reader Node := do
  let body ← repeated (do
    if (← ahead).kind == .finish then return none else return some (← p.statement .top .list)) p.depth
  return .mk .program body

/-- A text without the line that names its interpreter. -/
def dropInterpreterLine (text : List Char) : List Char :=
  match text with
  | '#' :: '!' :: rest => rest.dropWhile fun c => !Text.isLineEnd c
  | _ => text

/-- Reads a script as a module: its syntax tree, or nothing if it is none. -/
def parse? (source : String) : Option Node := do
  let text := dropInterpreterLine source.toList
  let (tree, cursor) ← program (productions (text.length + 4)) ⟨← Token.next? text, 0⟩
  let exported := tree.preorder.flatMap Node.exportedNames
  if cursor.openDefaults == 0 && exported.eraseDups.length == exported.length then some tree else none

end CellGraph.Script
