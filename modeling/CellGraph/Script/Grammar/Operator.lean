import CellGraph.Script.Grammar.Primary
import CellGraph.Script.Target

/-!
# Operators

Unary and binary expressions. Binary operators are read as a flat sequence of operands and operators, and a stack of
what waits for its right operand turns it into a tree, the strongest operators first.
-/

namespace CellGraph.Script

open Reader

/-- The operators with two operands, with their strength. -/
def binaryOperators : List (String × Nat) := [
  ("??", 1), ("||", 2), ("&&", 3), ("|", 4), ("^", 5), ("&", 6), ("==", 7), ("!=", 7), ("===", 7), ("!==", 7),
  ("<", 8), (">", 8), ("<=", 8), (">=", 8), ("in", 8), ("instanceof", 8), ("<<", 9), (">>", 9), (">>>", 9),
  ("+", 10), ("-", 10), ("*", 11), ("/", 11), ("%", 11), ("**", 12)]

/-- The strength of the comparisons, `in` among them. -/
def comparisonStrength : Nat := 8

/-- The strength of the power operator, the only one that groups to the right. -/
def powerStrength : Nat := 12

/-- The operator that a token is. -/
def operator? (ctx : Context) (token : Token) : Option (String × Nat) :=
  match token.kind with
  | .mark mark => binaryOperators.find? fun entry => entry.1 == mark
  | .word word false =>
    if word == "instanceof" || (word == "in" && ctx.hasIn) then some (word, comparisonStrength) else none
  | _ => none

/-- Whether an operand is a disjunction or conjunction without parentheses. -/
def isLogical (node : Node) : Bool := node.kind == .binary "||" || node.kind == .binary "&&"

/-- Joins two operands. A disjunction or conjunction next to `??`, and a unary expression before `**`, need
parentheses. -/
def combine? (left : Node) (operator : String) (right : Node) : Option Node :=
  let refused :=
    if operator == "??" then isLogical left || isLogical right
    else if operator == "**" then
      match left.kind with
      | .unary _ | .await => true
      | _ => false
    else false
  if refused then none else some (.mk (.binary operator) [left, right])

/-- An operand that waits for its operator's right side. -/
structure Waiting where
  left : Node
  operator : String
  strength : Nat

/-- Joins what waits for operands and is at least as strong as an operator that comes. -/
def reduce? (strength : Nat) : List Waiting → Node → Option (List Waiting × Node)
  | [], right => some ([], right)
  | top :: stack, right =>
    if top.strength > strength || (top.strength == strength && strength != powerStrength) then
      (combine? top.left top.operator right).bind (reduce? strength stack)
    else some (top :: stack, right)

/-- A unary expression, `await` and the prefix updates among them. -/
def unaryExpression (p : Productions) (ctx : Context) : Reader Node := do
  match (← ahead).kind with
  | .word word false =>
    if word == "delete" || word == "typeof" || word == "void" then
      advance
      return .mk (.unary word) [← p.unary ctx]
    else if word == "await" && ctx.hasAwait then
      advance
      return .mk .await [← p.unary ctx]
    else postfixed
  | .mark mark =>
    if mark == "+" || mark == "-" || mark == "~" || mark == "!" then
      advance
      return .mk (.unary mark) [← p.unary ctx]
    else if mark == "++" || mark == "--" then
      advance
      let target ← p.unary ctx
      require target.isSimpleTarget
      return .mk (.update mark) [target]
    else postfixed
  | _ => postfixed
where
  /-- A left-hand side, which an update on the same line may follow. -/
  postfixed : Reader Node := do
    let target ← leftHandSide p ctx
    let token ← ahead
    match token.kind with
    | .mark mark =>
      if (mark == "++" || mark == "--") && !token.onNewLine then
        require target.isSimpleTarget
        advance
        return .mk (.update mark) [target]
      else return target
    | _ => return target

/-- An operand. A private name is one before `in`, where nothing stronger waits. -/
def operand (p : Productions) (ctx : Context) (waiting : List Waiting) : Reader Node := do
  match (← ahead).kind with
  | .privateWord word => do
    advance
    require (ctx.hasIn && (← atWord "in") && waiting.all fun w => w.strength < comparisonStrength)
    return .leaf (.privateName word)
  | _ => unaryExpression p ctx

/-- The operators and operands after an operand. -/
def binaryRest (p : Productions) (ctx : Context) (stack : List Waiting) (right : Node) : Nat → Reader Node
  | 0 => refuse
  | depth + 1 => do
    match operator? ctx (← ahead) with
    | none =>
      match reduce? 0 stack right with
      | some (_, node) => return node
      | none => refuse
    | some (operator, strength) =>
      match reduce? strength stack right with
      | some (stack, left) => do
        advance
        let stack := ⟨left, operator, strength⟩ :: stack
        binaryRest p ctx stack (← operand p ctx stack) depth
      | none => refuse

/-- An expression with binary operators. -/
def binaryExpression (p : Productions) (ctx : Context) : Reader Node := do
  binaryRest p ctx [] (← operand p ctx []) p.depth

end CellGraph.Script
