import CellGraph.Script.Grammar.Operator

/-!
# Assignments, arrow functions and what else binds as loosely

A parenthesis starts the parameters of an arrow function exactly if it can be read as such and an arrow follows its
end on the same line.
-/

namespace CellGraph.Script

open Reader

/-- The operators that assign to a single target. -/
def updateOperators : List String := [
  "+=", "-=", "*=", "/=", "%=", "**=", "<<=", ">>=", ">>>=", "&=", "|=", "^=", "&&=", "||=", "??="]

/-- Takes an arrow on the line of the token before it. -/
def arrowMark : Reader Unit := do
  let token ← ahead
  require (token.isMark "=>" && !token.onNewLine)
  advance

/-- An arrow function after its arrow. -/
def arrowRest (p : Productions) (ctx : Context) (isAsync : Bool) (params : List Node) : Reader Node := do
  let inner := { ctx with hasAwait := isAsync, hasYield := false }
  let body ←
    if ← atMark "\x7b" then block p (ctx.body isAsync false) else p.assignment inner
  return .mk .arrow (params ++ [body])

/-- The parameters of an arrow function in parentheses, and its arrow. -/
def arrowHead (p : Productions) (ctx : Context) (isAsync : Bool) : Reader (List Node) := do
  let params ← parameters p { ctx.nested with hasAwait := ctx.hasAwait || isAsync }
  arrowMark
  return params

/-- The head of an asynchronous arrow function: parameters in parentheses or a single name, on the line of `async`. -/
def asyncArrowHead (p : Productions) (ctx : Context) : Reader (List Node) := do
  expectWord "async"
  let token ← ahead
  require !token.onNewLine
  if token.isMark "(" then arrowHead p ctx true
  else
    let param ← name { ctx with hasAwait := true }
    arrowMark
    return [.leaf (.name param)]

/-- An arrow function whose parameters are in parentheses or that is asynchronous, if one is ahead. -/
def arrowFunction? (p : Productions) (ctx : Context) : Reader (Option Node) := do
  if ← atMark "(" then
    match ← attempt (arrowHead p ctx false) with
    | some params => return some (← arrowRest p ctx false params)
    | none => return none
  else if ← atWord "async" then
    match ← attempt (asyncArrowHead p ctx) with
    | some params => return some (← arrowRest p ctx true params)
    | none => return none
  else return none

/-- A `yield` expression. Its argument starts on the same line. -/
def yieldExpression (p : Productions) (ctx : Context) : Reader Node := do
  expectWord "yield"
  let token ← ahead
  if token.onNewLine then return .leaf .yield
  if ← eatMark "*" then return .mk .yield [← p.assignment ctx]
  let ends := match token.kind with
    | .finish => true
    | .mark mark => [";", "\x7d", ")", "]", ":", ","].contains mark
    | .word word _ => word == "in" || word == "of"
    | _ => false
  if ends then return .leaf .yield else return .mk .yield [← p.assignment ctx]

/-- A condition with its two outcomes, if a question mark is ahead. -/
def conditionalRest (p : Productions) (ctx : Context) (condition : Node) : Reader Node := do
  if ← eatMark "?" then
    let positive ← p.assignment { ctx with hasIn := true }
    expectMark ":"
    return .mk .conditional [condition, positive, ← p.assignment ctx]
  else return condition

/-- Makes a target of what was read as an expression. -/
def asPattern (node : Node) : Reader Unit := do
  match node.patternDefaults? false with
  | some n => closeDefaults n
  | none => refuse

/-- An assignment, or an expression that binds more strongly. -/
def assignment (p : Productions) (ctx : Context) : Reader Node := do
  if ctx.hasYield && (← atWord "yield") then return ← yieldExpression p ctx
  match ← arrowFunction? p ctx with
  | some arrow => return arrow
  | none => do
    let left ← binaryExpression p ctx
    let token ← ahead
    match token.kind, left.kind with
    | .mark "=>", .name _ => do
      arrowMark
      arrowRest p ctx false [left]
    | .mark "=", _ => do
      asPattern left
      advance
      return .mk (.assignment "=") [left, ← p.assignment ctx]
    | .mark mark, _ =>
      if updateOperators.contains mark then
        require left.isSimpleTarget
        advance
        return .mk (.assignment mark) [left, ← p.assignment ctx]
      else conditionalRest p ctx left
    | _, _ => return left

end CellGraph.Script
