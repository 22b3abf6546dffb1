import CellGraph.Script.Grammar.Reader

/-!
# Binding patterns, keys and functions

The parts that expressions and statements share: the keys of properties, the patterns of declared variables and
parameters, and functions from their parameters on.
-/

namespace CellGraph.Script

open Reader

/-- The key of a property or member, with its text if it is written as a word or a string. -/
def propertyKey (p : Productions) (ctx : Context) : Reader (Node × Option String) := do
  match (← ahead).kind with
  | .word word _ => do advance; return (.leaf .key, some word)
  | .text text => do advance; return (.leaf .key, some text)
  | .number => do advance; return (.leaf .key, none)
  | .mark "[" => do
    advance
    let key ← p.assignment ctx.nested
    expectMark "]"
    return (.mk .computedKey [key], none)
  | _ => refuse

/-- A pattern and the default that may follow it. -/
def bindingElement (p : Productions) (ctx : Context) : Reader Node := do
  let target ← p.bindingTarget ctx
  if ← eatMark "=" then return .mk (.assignment "=") [target, ← p.assignment ctx.nested] else return target

/-- An element of an array pattern. -/
def arrayBindingElement (p : Productions) (ctx : Context) : Reader Node := do
  if ← atMark "," then return .leaf .hole
  if ← eatMark "..." then
    let target ← p.bindingTarget ctx
    require (← atMark "]")
    return .mk .spread [target]
  bindingElement p ctx

/-- A property of an object pattern. -/
def bindingProperty (p : Productions) (ctx : Context) : Reader Node := do
  if ← eatMark "..." then
    let word ← name ctx
    require (← atMark "\x7d")
    return .mk .spread [.leaf (.name word)]
  let token ← ahead
  let (key, text) ← propertyKey p ctx
  if ← eatMark ":" then return .mk .property [key, ← bindingElement p ctx]
  match text with
  | none => refuse
  | some word =>
    require (ctx.isNameToken token)
    if ← eatMark "=" then return .mk (.shorthandDefault word) [← p.assignment ctx.nested]
    else return .leaf (.shorthand word)

/-- A name, or an array or object pattern. -/
def bindingTarget (p : Productions) (ctx : Context) : Reader Node := do
  if ← eatMark "[" then
    let (elements, trailingComma) ← separated (arrayBindingElement p ctx) "]" p.depth
    expectMark "]"
    return .mk (.array trailingComma) elements
  if ← eatMark "\x7b" then
    let (properties, trailingComma) ← separated (bindingProperty p ctx) "\x7d" p.depth
    expectMark "\x7d"
    return .mk (.object trailingComma) properties
  return .leaf (.name (← name ctx))

/-- A parameter; one that takes the remaining arguments is the last, without a default. -/
def parameter (p : Productions) (ctx : Context) : Reader Node := do
  if ← eatMark "..." then
    let target ← p.bindingTarget ctx
    require (← atMark ")")
    return .mk .spread [target]
  bindingElement p ctx

/-- Parameters in parentheses. -/
def parameters (p : Productions) (ctx : Context) : Reader (List Node) := do
  expectMark "("
  let (params, _) ← separated (parameter p ctx) ")" p.depth
  expectMark ")"
  return params

/-- Statements up to a closing brace, which is not taken. -/
def statements (p : Productions) (ctx : Context) : Reader (List Node) :=
  repeated (do if ← atMark "\x7d" then return none else return some (← p.statement ctx .list)) p.depth

/-- Statements in braces. -/
def block (p : Productions) (ctx : Context) : Reader Node := do
  expectMark "\x7b"
  let body ← statements p ctx.nested
  expectMark "\x7d"
  return .mk .block body

/-- A function from its parameters on. -/
def functionRest (p : Productions) (ctx : Context) (isAsync isGenerator : Bool) (named : List Node) :
    Reader Node := do
  let ctx := ctx.body isAsync isGenerator
  let params ← parameters p ctx
  return .mk .function (named ++ params ++ [← block p ctx])

/-- What a method is besides a function. -/
inductive MethodRole
  | plain
  | getter
  | setter
  deriving DecidableEq

/-- Whether a method has the number of parameters its role asks for. -/
def MethodRole.accepts (role : MethodRole) (params : List Node) : Bool :=
  match role with
  | .plain => true
  | .getter => params.isEmpty
  | .setter => params.length == 1 && params.all fun param => param.kind != .spread

/-- A method from its parameters on. -/
def methodRest (p : Productions) (ctx : Context) (isAsync isGenerator : Bool) (role : MethodRole) (key : Node) :
    Reader Node := do
  let ctx := ctx.body isAsync isGenerator
  let params ← parameters p ctx
  require (role.accepts params)
  return .mk .method [key, .mk .function (params ++ [← block p ctx])]

/-- A function, from the word `function` on. The name of an expression is one of its own context, and may be absent;
`nameOptional` says whether that of a declaration may be. -/
def functionDefinition (p : Productions) (ctx : Context) (isExpression nameOptional isAsync : Bool) :
    Reader Node := do
  expectWord "function"
  let isGenerator ← eatMark "*"
  let nameContext := if isExpression then { ctx with hasAwait := isAsync, hasYield := isGenerator } else ctx
  if ← atMark "(" then
    require nameOptional
    functionRest p ctx isAsync isGenerator []
  else
    let word ← name nameContext
    functionRest p ctx isAsync isGenerator [.leaf (.name word)]

end CellGraph.Script
