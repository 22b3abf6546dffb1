import CellGraph.Script.Literal
import CellGraph.Script.Number
import CellGraph.Text.Layout

/-!
# Tokens of scripts

`Token.next?` reads the token that a text starts with, after blanks and comments. A slash is read as an operator and a
closing brace as a mark; where the grammar wants a regular expression or the next chunk of a template instead,
`Token.asPattern?` and `Token.asChunk?` read the same place again.
-/

namespace CellGraph.Script

open CellGraph.Text

/-- What a token is. -/
inductive TokenKind
  /-- An identifier or keyword, with its escapes decoded; the flag says whether it had any. -/
  | word (name : String) (escaped : Bool)
  | privateWord (name : String)
  | mark (text : String)
  | number
  | pattern
  | text (value : String)
  /-- A chunk of a template; the flag says whether it ends the template. -/
  | chunk (value : Option String) (last : Bool)
  | finish
  deriving DecidableEq, Repr

/-- A token with its surroundings. -/
structure Token where
  kind : TokenKind
  /-- Whether a line ends between the token and the one before. -/
  onNewLine : Bool
  /-- The text from the token on. -/
  source : List Char
  /-- The text after the token. -/
  rest : List Char

/-- Where a text between tokens stands. -/
inductive Gap
  | blank
  | lineComment
  | blockComment

/-- Drops blanks and comments; says whether a line ended in them. A comment that is never closed fails. -/
def skipGap? : Gap → (newLine : Bool) → List Char → Option (Bool × List Char)
  | .blockComment, _, [] => none
  | _, newLine, [] => some (newLine, [])
  | .blank, newLine, '/' :: '/' :: cs => skipGap? .lineComment newLine cs
  | .blank, newLine, '/' :: '*' :: cs => skipGap? .blockComment newLine cs
  | .blockComment, newLine, '*' :: '/' :: cs => skipGap? .blank newLine cs
  | .blank, newLine, c :: cs =>
    if isLineEnd c then skipGap? .blank true cs
    else if isScriptSpace c then skipGap? .blank newLine cs
    else some (newLine, c :: cs)
  | .lineComment, newLine, c :: cs =>
    if isLineEnd c then skipGap? .blank true cs else skipGap? .lineComment newLine cs
  | .blockComment, newLine, c :: cs => skipGap? .blockComment (newLine || isLineEnd c) cs

/-- The marks of the grammar, a longer one before those it starts with. -/
def marks : List (List Char × String) :=
  [">>>=", "...", "===", "!==", "**=", "<<=", ">>=", ">>>", "&&=", "||=", "??=", "=>", "==", "!=", "<=", ">=", "&&",
    "||", "??", "?.", "++", "--", "+=", "-=", "*=", "/=", "%=", "&=", "|=", "^=", "<<", ">>", "**", "\x7b", "\x7d",
    "(", ")", "[", "]", ";", ",", "<", ">", "+", "-", "*", "/", "%", "&", "|", "^", "!", "~", "?", ":", "=", ".",
    "@"].map fun mark => (mark.toList, mark)

/-- The mark that a text starts with. An optional link before a digit is a question mark, and the mark that opens a
comment of another language is none. -/
def mark? (cs : List Char) : Option (String × List Char) :=
  match cs with
  | '<' :: '!' :: '-' :: '-' :: _ => none
  | '?' :: '.' :: d :: rest => if d.isDigit then some ("?", '.' :: d :: rest) else some ("?.", d :: rest)
  | _ => marks.findSome? fun (chars, mark) => (dropPrefix? chars cs).map fun rest => (mark, rest)

/-- Reads the characters of an identifier, with whether one of them was escaped; `first` says that none has been read,
and `skip` counts the characters an escape has taken already. -/
def wordChars? : (first : Bool) → (skip : Nat) → List Char → Option (List Char × Bool × List Char)
  | first, _, [] => if first then none else some ([], false, [])
  | first, skip + 1, _ :: cs => wordChars? first skip cs
  | first, 0, c :: cs =>
    let fits := fun c => if first then isIdentifierStart c else isIdentifierPart c
    if fits c then (wordChars? false 0 cs).map fun (word, escaped, rest) => (c :: word, escaped, rest)
    else if c == '\\' then
      match cs with
      | 'u' :: code =>
        match unicodeEscape? code with
        | some (.char d, n) =>
          if fits d then (wordChars? false (n + 1) cs).map fun (word, _, rest) => (d :: word, true, rest) else none
        | _ => none
      | _ => none
    else if first then none
    else some ([], false, c :: cs)

namespace Token

/-- The kind of the token that a text without blanks in front starts with, and the text after it. -/
def scan? (cs : List Char) : Option (TokenKind × List Char) :=
  match cs with
  | [] => some (.finish, [])
  | c :: rest =>
    if isIdentifierStart c || c == '\\' then
      (wordChars? true 0 cs).map fun (word, escaped, rest) => (.word (String.ofList word) escaped, rest)
    else if c == '#' then
      (wordChars? true 0 rest).map fun (word, _, rest) => (.privateWord (String.ofList word), rest)
    else if c.isDigit || (c == '.' && rest.head?.any Char.isDigit) then
      (number? c rest).map fun rest => (.number, rest)
    else if c == '"' || c == '\'' then
      (stringBody? c 0 rest).map fun (pieces, rest) => (.text (Piece.toString pieces), rest)
    else if c == '\x60' then
      (chunk? 0 rest).map fun chunk => (.chunk (chunk.pieces.map Piece.toString) chunk.last, chunk.rest)
    else (mark? cs).map fun (mark, rest) => (.mark mark, rest)

/-- The token that a text starts with. -/
def next? (text : List Char) : Option Token := do
  let (newLine, cs) ← skipGap? .blank false text
  let (kind, rest) ← scan? cs
  some ⟨kind, newLine, cs, rest⟩

/-- The same place read as a regular expression. -/
def asPattern? (token : Token) : Option Token := do
  match token.source with
  | '/' :: cs => some { token with kind := .pattern, rest := ← pattern? cs }
  | _ => none

/-- The same place, a closing brace, read as the next chunk of a template. -/
def asChunk? (token : Token) : Option Token := do
  match token.source with
  | '}' :: cs =>
    let chunk ← chunk? 0 cs
    some { token with kind := .chunk (chunk.pieces.map Piece.toString) chunk.last, rest := chunk.rest }
  | _ => none

/-- Whether a token is the given mark. -/
def isMark (token : Token) (mark : String) : Bool := token.kind == .mark mark

/-- Whether a token is the given word, written without escapes. -/
def isWord (token : Token) (word : String) : Bool := token.kind == .word word false

end Token

end CellGraph.Script
