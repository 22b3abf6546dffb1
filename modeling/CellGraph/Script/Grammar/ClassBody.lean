import CellGraph.Script.Grammar.Binding

/-!
# Classes

Classes with their decorators and members. A constructor is a plain method, no field has its name, and neither a
static member called `prototype` nor a private one called `constructor` exists.
-/

namespace CellGraph.Script

open Reader

/-- Decorators in front of a class or a member. -/
def decorators (p : Productions) (ctx : Context) : Reader (List Node) :=
  repeated (do
    if ← eatMark "@" then return some (.mk .decorator [← p.leftHandSide { ctx.nested with inDecorator := true }])
    else return none) p.depth

/-- The key of a class member: that of a property, or a private name. -/
def memberKey (p : Productions) (ctx : Context) : Reader (Node × Option String) := do
  match (← ahead).kind with
  | .privateWord word => do
    require (word != "constructor")
    advance
    return (.leaf .key, none)
  | _ => propertyKey p ctx

/-- A class member after its decorators. -/
def classMember (p : Productions) (ctx : Context) : Reader Node := do
  let isStatic ← modifier "static" false fun next =>
    next.startsKey || next.isMark "*" || next.isMark "\x7b"
  if isStatic && (← atMark "\x7b") then
    return .mk .staticBlock [← block p { ctx.nested with hasAwait := true, hasYield := false, hasReturn := false }]
  let isAccessor ← modifier "accessor" true Token.startsKey
  let isAsync ← if isAccessor then pure false
    else modifier "async" true fun next => next.startsKey || next.isMark "*"
  let isGenerator ← if isAccessor then pure false else eatMark "*"
  let plain := isAccessor || isAsync || isGenerator
  let isGetter ← if plain then pure false else modifier "get" false Token.startsKey
  let isSetter ← if plain || isGetter then pure false else modifier "set" false Token.startsKey
  let role := if isGetter then .getter else if isSetter then MethodRole.setter else .plain
  let (key, text) ← memberKey p ctx
  require !(isStatic && text == some "prototype")
  if !isAccessor && (isAsync || isGenerator || role != .plain || (← atMark "(")) then
    let isConstructor := !isStatic && text == some "constructor"
    require !(isConstructor && (isAsync || isGenerator || role != .plain))
    methodRest p ctx isAsync isGenerator role key
  else
    require (text != some "constructor")
    let fieldContext := { ctx.nested with hasAwait := false, hasYield := false }
    let value ← if ← eatMark "=" then pure [← p.assignment fieldContext] else pure []
    statementEnd
    return .mk .field (key :: value)

/-- A class member with its decorators. -/
def decoratedMember (p : Productions) (ctx : Context) : Reader Node := do
  let decorating ← decorators p ctx
  let member ← classMember p ctx
  require !(!decorating.isEmpty && member.kind == .staticBlock)
  return .mk member.kind (decorating ++ member.parts)

/-- A class from the word `class` on. -/
def classDefinition (p : Productions) (ctx : Context) (nameOptional : Bool) (decorating : List Node) :
    Reader Node := do
  expectWord "class"
  let named ← do
    if ctx.isNameToken (← ahead) then pure [Node.leaf (.name (← name ctx))]
    else do require nameOptional; pure []
  let heritage ← if ← eatWord "extends" then pure [← p.leftHandSide ctx.nested] else pure []
  expectMark "\x7b"
  let members ← repeated (do
    if ← atMark "\x7d" then return none
    if ← eatMark ";" then return some (.leaf .empty)
    return some (← decoratedMember p ctx.nested)) p.depth
  expectMark "\x7d"
  return .mk .classDefinition (decorating ++ named ++ heritage ++ members)

end CellGraph.Script
