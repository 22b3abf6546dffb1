import CellGraph.Script.Grammar.ClassBody

/-!
# Primary expressions, members and calls

Expressions up to calls: literals, templates, arrays, objects, functions, classes and what is accessed or called on
them. Arrow functions are read where assignments are.
-/

namespace CellGraph.Script

open Reader

/-- Assignments with commas between them. -/
def expression (p : Productions) (ctx : Context) : Reader Node := do
  let first ← p.assignment ctx
  let rest ← repeated (do
    if ← eatMark "," then return some (← p.assignment ctx) else return none) p.depth
  return if rest.isEmpty then first else .mk .sequence (first :: rest)

/-- The chunks of a template after its first, with the expressions between them. -/
def templateRest (p : Productions) (ctx : Context) : Nat → Reader (List (Option String) × List Node)
  | 0 => refuse
  | depth + 1 => do
    let value ← expression p ctx.nested
    replace (← ahead).asChunk?
    match (← ahead).kind with
    | .chunk chunk last => do
      advance
      if last then return ([chunk], [value])
      let (chunks, values) ← templateRest p ctx depth
      return (chunk :: chunks, value :: values)
    | _ => refuse

/-- A template. Only a tagged one may have invalid escapes. -/
def template (p : Productions) (ctx : Context) (tagged : Bool) : Reader Node := do
  match (← ahead).kind with
  | .chunk chunk last => do
    advance
    let (chunks, values) ← if last then pure ([], []) else templateRest p ctx p.depth
    require (tagged || (chunk :: chunks).all Option.isSome)
    return .mk (.template (chunk :: chunks)) values
  | _ => refuse

/-- Whether a template is ahead. -/
def atTemplate : Reader Bool := do
  match (← ahead).kind with
  | .chunk _ _ => return true
  | _ => return false

/-- An expression, or three dots and an expression. -/
def spreadable (p : Productions) (ctx : Context) : Reader Node := do
  if ← eatMark "..." then return .mk .spread [← p.assignment ctx] else p.assignment ctx

/-- An array literal. -/
def arrayLiteral (p : Productions) (ctx : Context) : Reader Node := do
  expectMark "["
  let element := do if ← atMark "," then return .leaf .hole else spreadable p ctx.nested
  let (elements, trailingComma) ← separated element "]" p.depth
  expectMark "]"
  return .mk (.array trailingComma) elements

/-- A property of an object literal. -/
def property (p : Productions) (ctx : Context) : Reader Node := do
  if ← eatMark "..." then return .mk .spread [← p.assignment ctx]
  let isAsync ← modifier "async" true fun next => next.startsKey || next.isMark "*"
  let isGenerator ← eatMark "*"
  let isGetter ← if isAsync || isGenerator then pure false else modifier "get" false Token.startsKey
  let isSetter ← if isAsync || isGenerator || isGetter then pure false else modifier "set" false Token.startsKey
  let role := if isGetter then .getter else if isSetter then MethodRole.setter else .plain
  let token ← ahead
  let (key, text) ← propertyKey p ctx
  if isAsync || isGenerator || role != .plain || (← atMark "(") then
    methodRest p ctx isAsync isGenerator role key
  else if ← eatMark ":" then return .mk .property [key, ← p.assignment ctx]
  else
    match text with
    | none => refuse
    | some word =>
      require (ctx.isNameToken token)
      if ← eatMark "=" then
        openDefault
        return .mk (.shorthandDefault word) [← p.assignment ctx]
      else return .leaf (.shorthand word)

/-- An object literal. -/
def objectLiteral (p : Productions) (ctx : Context) : Reader Node := do
  expectMark "\x7b"
  let (properties, trailingComma) ← separated (property p ctx.nested) "\x7d" p.depth
  expectMark "\x7d"
  return .mk (.object trailingComma) properties

/-- Arguments in parentheses. -/
def arguments (p : Productions) (ctx : Context) : Reader (List Node) := do
  expectMark "("
  let (args, _) ← separated (spreadable p ctx.nested) ")" p.depth
  expectMark ")"
  return args

/-- An import as an expression: a property of `import`, or a call with one or two arguments. -/
def importExpression (p : Productions) (ctx : Context) : Reader Node := do
  expectWord "import"
  let isMeta ← do
    if ← eatMark "." then
      if ← eatWord "meta" then pure true
      else if ← eatWord "source" then pure false
      else do expectWord "defer"; pure false
    else pure false
  if isMeta then return .leaf .metaProperty
  expectMark "("
  let source ← p.assignment ctx.nested
  let options ← do
    if (← eatMark ",") && !(← atMark ")") then
      let options ← p.assignment ctx.nested
      let _ ← eatMark ","
      pure [options]
    else pure []
  expectMark ")"
  return .mk .importCall (source :: options)

/-- Whether the word ahead starts an asynchronous function. -/
def atAsyncFunction : Reader Bool := do
  if ← atWord "async" then
    return (← afterAhead).any fun next => next.isWord "function" && !next.onNewLine
  else return false

/-- A `new` expression: `new.target`, or the construction of a member that is no import and has no optional link. -/
def construction (p : Productions) (ctx : Context) : Reader Node := do
  expectWord "new"
  if ← eatMark "." then
    expectWord "target"
    return .leaf .metaProperty
  let callee ← p.member ctx
  require (callee.kind != .importCall && !(← atMark "?."))
  let args ← if ← atMark "(" then arguments p ctx else pure []
  return .mk .construction (callee :: args)

/-- An expression in parentheses. -/
def parenthesized (p : Productions) (ctx : Context) : Reader Node := do
  expectMark "("
  let inner ← expression p ctx.nested
  expectMark ")"
  return .mk .parenthesized [inner]

/-- An expression that starts with a word. -/
def wordExpression (p : Productions) (ctx : Context) (word : String) : Reader Node := do
  match word with
  | "function" => functionDefinition p ctx true true false
  | "class" => classDefinition p ctx true []
  | "new" => construction p ctx
  | "import" => importExpression p ctx
  | "this" => do advance; return .leaf .this
  | "null" | "true" | "false" => do advance; return .leaf .literal
  | "super" => do
    advance
    require ((← atMark ".") || (← atMark "[") || (← atMark "("))
    return .leaf .superclass
  | _ => do
    if ← atAsyncFunction then
      advance
      functionDefinition p ctx true true true
    else return .leaf (.name (← name ctx))

/-- A primary expression. -/
def primary (p : Productions) (ctx : Context) : Reader Node := do
  match (← ahead).kind with
  | .text value => do advance; return .leaf (.string value)
  | .number | .pattern => do advance; return .leaf .literal
  | .chunk _ _ => template p ctx false
  | .privateWord _ | .finish => refuse
  | .word word escaped => if escaped then return .leaf (.name (← name ctx)) else wordExpression p ctx word
  | .mark "(" => parenthesized p ctx
  | .mark "[" => arrayLiteral p ctx
  | .mark "\x7b" => objectLiteral p ctx
  | .mark "@" => do
    let decorating ← decorators p ctx
    classDefinition p ctx true decorating
  | .mark mark => do
    require (mark == "/" || mark == "/=")
    replace (← ahead).asPattern?
    advance
    return .leaf .literal

/-- A member access with a point: the name after it. -/
def namedMember (object : Node) : Reader Node := do
  match (← ahead).kind with
  | .word word _ => do advance; return .mk (.member word) [object]
  | .privateWord word => do advance; return .mk (.privateMember word) [object]
  | _ => refuse

/-- A member access with brackets. -/
def indexedMember (p : Productions) (ctx : Context) (object : Node) : Reader Node := do
  expectMark "["
  let index ← expression p ctx.nested
  expectMark "]"
  return .mk .index [object, index]

/-- What may follow an optional link: brackets, arguments or a name, but no template. -/
def optionalLink (p : Productions) (ctx : Context) (object : Node) : Reader Node := do
  if (← atMark "[") && !ctx.inDecorator then indexedMember p ctx object
  else if ← atMark "(" then return .mk .call (object :: (← arguments p ctx))
  else namedMember object

/-- Member accesses on an object and, if `calls` is set, calls and optional links. An optional link makes the whole a
chain, and no template may follow in it. -/
def accesses (p : Productions) (ctx : Context) (calls : Bool) (object : Node) (linked : Bool) : Nat → Reader Node
  | 0 => refuse
  | depth + 1 => do
    if ← eatMark "." then accesses p ctx calls (← namedMember object) linked depth
    else if (← atMark "[") && !ctx.inDecorator then
      accesses p ctx calls (← indexedMember p ctx object) linked depth
    else if ← atTemplate then
      require !linked
      accesses p ctx calls (.mk .taggedTemplate [object, ← template p ctx true]) linked depth
    else if calls && (← atMark "(") then
      accesses p ctx calls (.mk .call (object :: (← arguments p ctx))) linked depth
    else if calls && (← atMark "?.") then
      advance
      accesses p ctx calls (← optionalLink p ctx object) true depth
    else return if linked then .mk .chain [object] else object

/-- A primary expression with member accesses. -/
def memberExpression (p : Productions) (ctx : Context) : Reader Node := do
  accesses p ctx false (← primary p ctx) false p.depth

/-- A primary expression with member accesses and calls. -/
def leftHandSide (p : Productions) (ctx : Context) : Reader Node := do
  accesses p ctx true (← primary p ctx) false p.depth

end CellGraph.Script
