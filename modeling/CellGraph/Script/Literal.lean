import CellGraph.Text.Character

/-!
# Text literals of scripts

The decoded value of string literals and template chunks. A literal is read as a list of `Piece`s: characters, and
surrogate code units that no character stands for. Two halves written one after the other as `\uXXXX` join into one
character; what stays alone is written as U+FFFD and four digits, and so is then U+FFFD itself (`Piece.toString`).
-/

namespace CellGraph.Script

open CellGraph.Text

/-- A piece of a text literal. -/
inductive Piece
  | char (c : Char)
  /-- A surrogate written with four digits; it joins with a matching one that follows. -/
  | half (unit : Nat)
  /-- A surrogate written in braces; it never joins. -/
  | stray (unit : Nat)
  deriving DecidableEq, Repr

namespace Piece

/-- A code unit or code point as a piece. -/
def ofCode (n : Nat) (alone : Nat → Piece) : Piece :=
  if 0xD800 ≤ n && n ≤ 0xDFFF then alone n else .char (Char.ofNat n)

/-- Joins the pairs of matching halves. -/
def join : List Piece → List Piece
  | .half high :: .half low :: rest =>
    if high < 0xDC00 && 0xDC00 ≤ low then
      .char (Char.ofNat (0x10000 + (high - 0xD800) * 0x400 + (low - 0xDC00))) :: join rest
    else .half high :: join (.half low :: rest)
  | piece :: rest => piece :: join rest
  | [] => []

/-- Whether a piece is a surrogate that stayed alone. -/
def isAlone : Piece → Bool
  | .char _ => false
  | _ => true

/-- The four lower-case hexadecimal digits of a code unit. -/
def unitDigits (n : Nat) : List Char :=
  [hexDigit (n / 4096 % 16), hexDigit (n / 256 % 16), hexDigit (n / 16 % 16), hexDigit (n % 16)]

/-- The characters of a piece; `marked` says that the text has surrogates that stayed alone. -/
def chars (marked : Bool) : Piece → List Char
  | .char c => if marked && c.toNat == 0xFFFD then c :: unitDigits 0xFFFD else [c]
  | .half n => Char.ofNat 0xFFFD :: unitDigits n
  | .stray n => Char.ofNat 0xFFFD :: unitDigits n

/-- The value of a literal. -/
def toString (pieces : List Piece) : String :=
  let joined := join pieces
  String.ofList (joined.flatMap (chars (joined.any isAlone)))

end Piece

/-- A code unit written with four hexadecimal digits, or a code point written in braces: its piece and the number of
characters it takes. -/
def unicodeEscape? : List Char → Option (Piece × Nat)
  | '{' :: cs =>
    let digits := cs.takeWhile fun c => (hexValue? c).isSome
    match hexNumber? digits, cs.dropWhile fun c => (hexValue? c).isSome with
    | some n, '}' :: _ =>
      if digits.isEmpty || n > 0x10FFFF then none else some (Piece.ofCode n .stray, digits.length + 2)
    | _, _ => none
  | a :: b :: c :: d :: _ => (hexNumber? [a, b, c, d]).map fun n => (Piece.ofCode n .half, 4)
  | _ => none

/-- Whether a character is a digit below the given one. -/
def isDigitBelow (c limit : Char) : Bool := '0' ≤ c && c < limit

/-- The character that up to three octal digits write, with the number of digits it takes. -/
def octalEscape (c : Char) (cs : List Char) : Piece × Nat :=
  let digit := fun (d : Char) => d.toNat - 48
  match cs with
  | d :: rest =>
    if isDigitBelow d '8' then
      match rest with
      | e :: _ =>
        if isDigitBelow c '4' && isDigitBelow e '8' then
          (.char (Char.ofNat (64 * digit c + 8 * digit d + digit e)), 3)
        else (.char (Char.ofNat (8 * digit c + digit d)), 2)
      | [] => (.char (Char.ofNat (8 * digit c + digit d)), 2)
    else (.char (Char.ofNat (digit c)), 1)
  | [] => (.char (Char.ofNat (digit c)), 1)

/-- What a backslash before a text writes: the pieces, and the number of characters it takes of the text. Octal
escapes are no escapes of templates. -/
def escape? (inTemplate : Bool) : List Char → Option (List Piece × Nat)
  | [] => none
  | '\r' :: '\n' :: _ => some ([], 2)
  | 'x' :: cs =>
    match cs with
    | a :: b :: _ => (hexNumber? [a, b]).map fun n => ([.char (Char.ofNat n)], 3)
    | _ => none
  | 'u' :: cs => (unicodeEscape? cs).map fun (piece, n) => ([piece], n + 1)
  | c :: cs =>
    if isLineEnd c then some ([], 1)
    else if c == '0' && !(cs.head?.any Char.isDigit) then some ([.char (Char.ofNat 0)], 1)
    else if c.isDigit then
      if inTemplate then none
      else if c == '8' || c == '9' then some ([.char c], 1)
      else
        let (piece, n) := octalEscape c cs
        some ([piece], n)
    else
      let value := match c with
        | 'n' => '\n'
        | 't' => '\t'
        | 'r' => '\r'
        | 'b' => Char.ofNat 8
        | 'v' => Char.ofNat 11
        | 'f' => Char.ofNat 12
        | c => c
      some ([.char value], 1)

/-- Reads a string literal up to its closing quote; `skip` counts the characters an escape has taken already. -/
def stringBody? (quote : Char) : Nat → List Char → Option (List Piece × List Char)
  | _, [] => none
  | skip + 1, _ :: cs => stringBody? quote skip cs
  | 0, c :: cs =>
    if c == quote then some ([], cs)
    else if c == '\n' || c == '\r' then none
    else if c == '\\' then
      match escape? false cs with
      | some (pieces, n) => (stringBody? quote n cs).map fun (ps, rest) => (pieces ++ ps, rest)
      | none => none
    else (stringBody? quote 0 cs).map fun (ps, rest) => (.char c :: ps, rest)

/-- A template chunk: its pieces unless an escape in it is invalid, whether it ends the template, and what follows. -/
structure Chunk where
  pieces : Option (List Piece)
  last : Bool
  rest : List Char

/-- A chunk with more pieces in front. -/
def Chunk.prepend (pieces : List Piece) (chunk : Chunk) : Chunk :=
  { chunk with pieces := chunk.pieces.map (pieces ++ ·) }

/-- Reads a template chunk up to a closing quote or the start of a substitution; every line end counts as a line
feed. -/
def chunk? : Nat → List Char → Option Chunk
  | _, [] => none
  | skip + 1, _ :: cs => chunk? skip cs
  | 0, '\x60' :: cs => some ⟨some [], true, cs⟩
  | 0, '$' :: '{' :: cs => some ⟨some [], false, cs⟩
  | 0, '\r' :: '\n' :: cs => (chunk? 0 cs).map (Chunk.prepend [.char '\n'])
  | 0, c :: cs =>
    if c == '\\' then
      match escape? true cs with
      | some (pieces, n) => (chunk? n cs).map (Chunk.prepend pieces)
      | none => (chunk? 1 cs).map fun chunk => { chunk with pieces := none }
    else (chunk? 0 cs).map (Chunk.prepend [.char (if c == '\r' then '\n' else c)])

/-- Reads the rest of a regular expression after its opening slash: the text after its closing one. -/
def patternBody? : (inClass : Bool) → (escaped : Bool) → List Char → Option (List Char)
  | _, _, [] => none
  | inClass, escaped, c :: cs =>
    if isLineEnd c then none
    else if escaped then patternBody? inClass false cs
    else if c == '/' && !inClass then some cs
    else patternBody? (if c == '[' then true else if c == ']' then false else inClass) (c == '\\') cs

/-- The flags of a regular expression are known ones, none of them twice. -/
def patternFlagsValid (flags : List Char) : Bool :=
  flags.all (fun c => ['d', 'g', 'i', 'm', 's', 'u', 'v', 'y'].contains c) && flags.eraseDups.length == flags.length

/-- Reads a regular expression after its opening slash; its flags end at the first character that is no ASCII
identifier character. -/
def pattern? (cs : List Char) : Option (List Char) := do
  let rest ← patternBody? false false cs
  let isFlag := fun c => isAsciiWord c || c == '$'
  if patternFlagsValid (rest.takeWhile isFlag) then some (rest.dropWhile isFlag) else none

end CellGraph.Script
