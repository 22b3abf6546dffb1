import CellGraph.Text.Substitution

/-!
# The notation of cells

Cells may say a little more than scripts: `viewof` and `mutable` stand before a name, an import may inject cells by a
`with` clause, and a block in braces may be the value of a cell, or a cell of its own. `normalize` turns the first
three into plain script, and `wrapBlocks` the last. Only what refers to other files has to survive, so both look at
the text alone: strings, templates and comments are recognized where prefixes are dropped, and nowhere else.
-/

namespace CellGraph.Script

open Text

/-- What follows a group in braces that holds no closing brace. -/
def afterBraces? : List Char → Option (List Char)
  | '{' :: cs =>
    match cs.dropWhile (· != '}') with
    | _ :: rest => some rest
    | [] => none
  | _ => none

/-- What follows the blank characters a text begins with. -/
def afterBlanks (text : List Char) : List Char := text.dropWhile isBlank

/-- What follows the blank characters a text begins with, at least one. -/
def afterSomeBlanks? : List Char → Option (List Char)
  | c :: cs => if isBlank c then some (afterBlanks cs) else none
  | [] => none

/-- An import of names in braces with an injection: the injection goes. -/
def importInjection : Pattern := fun before text => do
  guard (atWordStart before)
  let names ← dropPrefix? "import".toList text
  let clause ← afterBraces? (afterBlanks names)
  let injected ← dropPrefix? "with".toList (afterBlanks clause)
  let rest ← afterBraces? (afterBlanks injected)
  return .upTo text rest (text.take (text.length - clause.length))

/-- What follows a cell prefix and the blank characters after it. -/
def afterCellPrefix? (text : List Char) : Option (List Char) :=
  (dropPrefix? "viewof".toList text <|> dropPrefix? "mutable".toList text).bind afterSomeBlanks?

/-- A character that may start the name of a cell. -/
def isCellStart (c : Char) : Bool := c.isAlpha || c == '_' || c == '$'

/-- The name of a cell and what follows it. -/
def cellName? : List Char → Option (List Char × List Char)
  | [] => none
  | c :: cs =>
    if isCellStart c then
      some ((c :: cs).takeWhile (fun c => isWord c || c == '$'), cs.dropWhile (fun c => isWord c || c == '$'))
    else none

/-- A name, an equals sign and an opening brace: the name, and what follows the brace. -/
def blockHead? (text : List Char) : Option (List Char × List Char) := do
  let (name, rest) ← cellName? text
  let value ← dropPrefix? "=".toList (afterBlanks rest)
  let body ← dropPrefix? ['{'] (afterBlanks value)
  return (name, body)

/-- A line that opens a named block: the block becomes the body of an asynchronous generator. -/
def namedBlock : Pattern := fun before text => do
  guard (atLineStart before)
  let (name, rest) ← (afterCellPrefix? text).bind blockHead? <|> blockHead? text
  return .upTo text rest (name ++ " = async function* () \x7b".toList)

/-- What follows the closing quote of a text whose opening quote has been read. A backslash takes the next character
along, which is no line feed; other line feeds may stand in templates only. -/
def afterQuoted? (quote : Char) : List Char → Option (List Char)
  | [] => none
  | '\\' :: c :: cs => if c == '\n' then none else afterQuoted? quote cs
  | c :: cs =>
    if c == quote then some cs
    else if c == '\\' || (c == '\n' && quote != '\x60') then none
    else afterQuoted? quote cs

/-- What follows the first mark that ends a block comment. -/
def afterBlockComment? : List Char → Option (List Char)
  | [] => none
  | '*' :: '/' :: cs => some cs
  | _ :: cs => afterBlockComment? cs

/-- What follows the string, template or comment that a text begins with. -/
def afterVerbatim? : List Char → Option (List Char)
  | '/' :: '/' :: cs => some (cs.dropWhile (· != '\n'))
  | '/' :: '*' :: cs => afterBlockComment? cs
  | c :: cs => if c == '"' || c == '\'' || c == '\x60' then afterQuoted? c cs else none
  | [] => none

/-- The prefix of a cell before a name, which goes. Strings, templates and comments stay as they are. -/
def cellPrefix : Pattern := fun before text =>
  match afterVerbatim? text with
  | some rest => some (.upTo text rest (text.take (text.length - rest.length)))
  | none => do
    guard (atWordStart before)
    match ← afterCellPrefix? text with
    | c :: rest => if isCellStart c then some (.upTo text rest [c]) else none
    | [] => none

/-- A brace that opens a line: the block becomes the body of an asynchronous generator. -/
def anonymousBlock : Pattern := fun before text => do
  guard (atLineStart before)
  let rest ← dropPrefix? ['{'] text
  return .upTo text rest "void async function* () \x7b".toList

/-- Drops the cell prefixes of a text outside of strings, templates and comments. -/
def dropCellPrefixes (text : List Char) : List Char := substitute cellPrefix text

/-- Turns the notation of cells into plain script. -/
def normalize (source : String) : String :=
  .ofList (dropCellPrefixes (substitute namedBlock (substitute importInjection source.toList)))

/-- Turns every brace that opens a line into the start of a generator. -/
def wrapBlocks (source : String) : String := .ofList (substitute anonymousBlock source.toList)

end CellGraph.Script
