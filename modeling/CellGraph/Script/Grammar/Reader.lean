import CellGraph.Script.Token
import CellGraph.Script.Tree

/-!
# Reading scripts token by token

A `Reader` looks at one token ahead and fails on the first token the grammar does not allow. Productions that contain
each other come in a record, `Productions`: a production of one depth uses those of the depth below for what is nested
inside it, and the depth also bounds its repetitions. Every nesting and every repetition takes a character, so the
length of a script is depth enough for it.
-/

namespace CellGraph.Script

/-- Where a reader is: the token ahead, and how many shorthand defaults have no meaning yet. -/
structure Cursor where
  token : Token
  openDefaults : Nat

/-- A reader of a part of a script. -/
abbrev Reader (α : Type) := StateT Cursor Option α

/-- What the grammar allows where a production stands. -/
structure Context where
  /-- Whether `in` is an operator here. -/
  hasIn : Bool
  /-- Whether `yield` is an operator here. -/
  hasYield : Bool
  /-- Whether `await` is an operator here. -/
  hasAwait : Bool
  /-- Whether a `return` may stand here. -/
  hasReturn : Bool
  /-- Whether this is a decorator, where a bracket starts the decorated class or member. -/
  inDecorator : Bool

/-- The context of a whole script. -/
def Context.top : Context := ⟨true, false, true, true, false⟩

/-- The context inside brackets of any kind. -/
def Context.nested (ctx : Context) : Context := { ctx with hasIn := true, inDecorator := false }

/-- The context of a function's parameters and body. -/
def Context.body (ctx : Context) (isAsync isGenerator : Bool) : Context :=
  { ctx.nested with hasAwait := isAsync, hasYield := isGenerator, hasReturn := true }

/-- Whether a statement stands in a list, where declarations may stand too, or alone as part of another one. -/
inductive Place
  | list
  | single
  deriving DecidableEq

/-- The productions that others are nested in, for a depth of nesting. -/
structure Productions where
  depth : Nat
  assignment : Context → Reader Node
  unary : Context → Reader Node
  member : Context → Reader Node
  leftHandSide : Context → Reader Node
  bindingTarget : Context → Reader Node
  statement : Context → Place → Reader Node

namespace Reader

/-- Refuses the token ahead. -/
def refuse {α : Type} : Reader α := fun _ => none

/-- The token ahead. -/
def ahead : Reader Token := fun cursor => some (cursor.token, cursor)

/-- The token after the one ahead, if there is one. -/
def afterAhead : Reader (Option Token) := fun cursor => some (Token.next? cursor.token.rest, cursor)

/-- Puts another reading of the place ahead in place of the token. -/
def replace (token : Option Token) : Reader Unit := fun cursor =>
  token.map fun token => ((), { cursor with token := token })

/-- Goes on to the next token. -/
def advance : Reader Unit := fun cursor =>
  (Token.next? cursor.token.rest).map fun token => ((), { cursor with token := token })

/-- Reads something if it is there. -/
def attempt {α : Type} (reader : Reader α) : Reader (Option α) := fun cursor =>
  match reader cursor with
  | some (value, cursor) => some (some value, cursor)
  | none => some (none, cursor)

/-- Goes on if a condition holds. -/
def require (condition : Bool) : Reader Unit := if condition then pure () else refuse

def atMark (mark : String) : Reader Bool := return (← ahead).isMark mark

def atWord (word : String) : Reader Bool := return (← ahead).isWord word

/-- Takes a mark if it is ahead. -/
def eatMark (mark : String) : Reader Bool := do
  if ← atMark mark then do advance; return true else return false

/-- Takes a word if it is ahead. -/
def eatWord (word : String) : Reader Bool := do
  if ← atWord word then do advance; return true else return false

/-- Takes a mark that has to be ahead. -/
def expectMark (mark : String) : Reader Unit := do require (← eatMark mark)

/-- Takes a word that has to be ahead. -/
def expectWord (word : String) : Reader Unit := do require (← eatWord word)

/-- Takes a word of any kind. -/
def anyWord : Reader String := do
  match (← ahead).kind with
  | .word name _ => do advance; return name
  | _ => refuse

/-- Takes a string literal. -/
def string : Reader String := do
  match (← ahead).kind with
  | .text value => do advance; return value
  | _ => refuse

/-- Repeats a reader until it answers `none`. -/
def repeated {α : Type} (step : Reader (Option α)) : Nat → Reader (List α)
  | 0 => refuse
  | depth + 1 => do
    match ← step with
    | some value => return value :: (← repeated step depth)
    | none => return []

/-- Items with commas between them up to a closing mark, which is not taken, and whether a comma follows the last
one. -/
def separated (item : Reader Node) (close : String) : Nat → Reader (List Node × Bool)
  | 0 => refuse
  | depth + 1 => do
    if ← atMark close then return ([], false)
    let first ← item
    if ← eatMark "," then
      if ← atMark close then return ([first], true)
      let (rest, trailingComma) ← separated item close depth
      return (first :: rest, trailingComma)
    else return ([first], false)

/-- The end of a statement: a semicolon, or a place where one may be left out. -/
def statementEnd : Reader Unit := do
  if ← eatMark ";" then return ()
  let token ← ahead
  require (token.onNewLine || token.isMark "\x7d" || token.kind == .finish)

/-- Takes note of a shorthand default, which has no meaning yet. -/
def openDefault : Reader Unit := fun cursor => some ((), { cursor with openDefaults := cursor.openDefaults + 1 })

/-- Takes note that shorthand defaults got a meaning. -/
def closeDefaults (n : Nat) : Reader Unit := fun cursor =>
  some ((), { cursor with openDefaults := cursor.openDefaults - n })

end Reader

/-- The words that are never names. -/
def reservedWords : List String := [
  "break", "case", "catch", "class", "const", "continue", "debugger", "default", "delete", "do", "else", "enum",
  "export", "extends", "false", "finally", "for", "function", "if", "import", "in", "instanceof", "new", "null",
  "return", "super", "switch", "this", "throw", "true", "try", "typeof", "var", "void", "while", "with"]

/-- Whether a word is a name in a context. -/
def Context.isName (ctx : Context) (word : String) : Bool :=
  !reservedWords.contains word && !(ctx.hasAwait && word == "await") && !(ctx.hasYield && word == "yield")

/-- Whether a token is a name in a context. -/
def Context.isNameToken (ctx : Context) (token : Token) : Bool :=
  match token.kind with
  | .word word _ => ctx.isName word
  | _ => false

/-- Takes a name. -/
def name (ctx : Context) : Reader String := do
  let word ← Reader.anyWord
  Reader.require (ctx.isName word)
  return word

/-- Whether a token starts the name of a property or of a class member. -/
def Token.startsKey (token : Token) : Bool :=
  match token.kind with
  | .word _ _ | .privateWord _ | .text _ | .number => true
  | .mark mark => mark == "["
  | _ => false

/-- Takes a word that modifies the property or member after it. Whether it does shows in the token that follows. -/
def modifier (word : String) (sameLine : Bool) (follows : Token → Bool) : Reader Bool := do
  if ← Reader.atWord word then
    match ← Reader.afterAhead with
    | some next =>
      if follows next && !(sameLine && next.onNewLine) then do Reader.advance; return true else return false
    | none => return false
  else return false

end CellGraph.Script
