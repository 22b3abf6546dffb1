import CellGraph.Json.Numeral
import CellGraph.Text.Character

/-!
# Texts of values

A `Tree` is what a text in JSON says, before it is decided what of it is kept: numbers as they are written, members of
an object in order and with repeated names, and strings of which `none` marks one that is no text, because half of a
surrogate pair stands alone in it. `Tree.parse?` reads a text.
-/

namespace CellGraph.Json

/-- What a text in JSON says. -/
inductive Tree
  | null
  | bool (value : Bool)
  | number (value : Numeral)
  | string (value : Option String)
  | array (elements : List Tree)
  | object (members : List (Option String × Tree))
  deriving Repr

/-- What follows the spaces between the marks of a text. -/
def skipSpaces (text : List Char) : List Char :=
  text.dropWhile fun c => c == ' ' || c == '\n' || c == '\t' || c == '\r'

/-- The text of code points in which each half of a surrogate pair stands beside the other. -/
def joinSurrogates? : List Nat → Option (List Char)
  | [] => some []
  | high :: low :: ns =>
    if 0xD800 ≤ high && high < 0xDC00 then
      if 0xDC00 ≤ low && low < 0xE000 then
        (joinSurrogates? ns).map (Char.ofNat (0x10000 + (high - 0xD800) * 0x400 + (low - 0xDC00)) :: ·)
      else none
    else if 0xDC00 ≤ high && high < 0xE000 then none
    else (joinSurrogates? (low :: ns)).map (Char.ofNat high :: ·)
  | [n] => if 0xD800 ≤ n && n < 0xE000 then none else some [Char.ofNat n]

/-- The character that an escape of one letter stands for. -/
def simpleEscape? (c : Char) : Option Nat :=
  match c with
  | '"' => some 34
  | '\\' => some 92
  | '/' => some 47
  | 'b' => some 8
  | 'f' => some 12
  | 'n' => some 10
  | 'r' => some 13
  | 't' => some 9
  | _ => none

/-- Reads a string after its opening quote: its code points, and what follows its closing quote. -/
def codePoints? : List Char → Option (List Nat × List Char)
  | '"' :: cs => some ([], cs)
  | '\\' :: 'u' :: a :: b :: c :: d :: cs => do
    let n ← Text.hexNumber? [a, b, c, d]
    let (ns, rest) ← codePoints? cs
    return (n :: ns, rest)
  | '\\' :: c :: cs => do
    let n ← simpleEscape? c
    let (ns, rest) ← codePoints? cs
    return (n :: ns, rest)
  | c :: cs => do
    guard (c.toNat ≥ 32 && c != '\\')
    let (ns, rest) ← codePoints? cs
    return (c.toNat :: ns, rest)
  | [] => none

/-- Reads a string after its opening quote. -/
def stringAt? (text : List Char) : Option (Option String × List Char) := do
  let (ns, rest) ← codePoints? text
  return ((joinSurrogates? ns).map .ofList, rest)

/-- The digits that a text begins with, as numbers, and what follows them. -/
def digitsAt : List Char → List Nat × List Char
  | [] => ([], [])
  | c :: cs =>
    if c.isDigit then
      let (ds, rest) := digitsAt cs
      ((c.toNat - 48) :: ds, rest)
    else ([], c :: cs)

/-- The number that decimal digits write. -/
def ofDigits (ds : List Nat) : Nat := ds.foldl (fun n d => 10 * n + d) 0

/-- Reads the fraction of a number, if there is one. -/
def fractionAt? : List Char → Option (List Nat × List Char)
  | '.' :: cs =>
    match digitsAt cs with
    | ([], _) => none
    | (ds, rest) => some (ds, rest)
  | cs => some ([], cs)

/-- Reads the digits of an exponent. -/
def exponentDigits? (negative : Bool) (text : List Char) : Option (Option Int × List Char) :=
  match digitsAt text with
  | ([], _) => none
  | (ds, rest) => some (some (if negative then -(ofDigits ds : Int) else ofDigits ds), rest)

/-- Reads the exponent of a number, if there is one. -/
def exponentAt? : List Char → Option (Option Int × List Char)
  | c :: cs =>
    if c == 'e' || c == 'E' then
      match cs with
      | '+' :: cs => exponentDigits? false cs
      | '-' :: cs => exponentDigits? true cs
      | cs => exponentDigits? false cs
    else some (none, c :: cs)
  | [] => some (none, [])

/-- Reads a number without its sign: a leading zero stands alone. -/
def magnitudeAt? (negative : Bool) (text : List Char) : Option (Numeral × List Char) := do
  let (whole, rest) := digitsAt text
  guard (!whole.isEmpty && (whole.head? != some 0 || whole.length == 1))
  let (fraction, rest) ← fractionAt? rest
  let (exponent, rest) ← exponentAt? rest
  return (⟨negative, whole, fraction, exponent⟩, rest)

/-- Reads a number. -/
def numeralAt? : List Char → Option (Numeral × List Char)
  | '-' :: cs => magnitudeAt? true cs
  | cs => magnitudeAt? false cs

mutual

/-- Reads a value; `fuel` bounds how deep the reading goes, and every step but every other one takes a character. -/
def treeAt? : Nat → List Char → Option (Tree × List Char)
  | 0, _ => none
  | fuel + 1, text =>
    match skipSpaces text with
    | 'n' :: 'u' :: 'l' :: 'l' :: cs => some (.null, cs)
    | 't' :: 'r' :: 'u' :: 'e' :: cs => some (.bool true, cs)
    | 'f' :: 'a' :: 'l' :: 's' :: 'e' :: cs => some (.bool false, cs)
    | '"' :: cs => (stringAt? cs).map fun (s, rest) => (.string s, rest)
    | '[' :: cs =>
      match skipSpaces cs with
      | ']' :: rest => some (.array [], rest)
      | cs => (elementsAt? fuel cs).map fun (elements, rest) => (.array elements, rest)
    | '{' :: cs =>
      match skipSpaces cs with
      | '}' :: rest => some (.object [], rest)
      | cs => (membersAt? fuel cs).map fun (members, rest) => (.object members, rest)
    | cs => (numeralAt? cs).map fun (n, rest) => (.number n, rest)

/-- Reads the elements of an array up to its closing bracket. -/
def elementsAt? : Nat → List Char → Option (List Tree × List Char)
  | 0, _ => none
  | fuel + 1, text => do
    let (element, rest) ← treeAt? fuel text
    match skipSpaces rest with
    | ',' :: cs => do
      let (elements, rest) ← elementsAt? fuel cs
      return (element :: elements, rest)
    | ']' :: cs => some ([element], cs)
    | _ => none

/-- Reads the members of an object up to its closing brace. -/
def membersAt? : Nat → List Char → Option (List (Option String × Tree) × List Char)
  | 0, _ => none
  | fuel + 1, text =>
    match skipSpaces text with
    | '"' :: cs => do
      let (name, rest) ← stringAt? cs
      match skipSpaces rest with
      | ':' :: cs => do
        let (value, rest) ← treeAt? fuel cs
        match skipSpaces rest with
        | ',' :: cs => do
          let (members, rest) ← membersAt? fuel cs
          return ((name, value) :: members, rest)
        | '}' :: cs => some ([(name, value)], cs)
        | _ => none
      | _ => none
    | _ => none

end

namespace Tree

/-- Reads a text that is one value. -/
def parse? (text : String) : Option Tree := do
  let (tree, rest) ← treeAt? (2 * text.length + 2) text.toList
  guard (skipSpaces rest).isEmpty
  return tree

mutual

/-- How many arrays and objects are nested in each other. -/
def depth : Tree → Nat
  | array elements => elementsDepth elements + 1
  | object members => membersDepth members + 1
  | _ => 0

/-- The greatest depth of the elements of an array. -/
def elementsDepth : List Tree → Nat
  | [] => 0
  | tree :: trees => max (depth tree) (elementsDepth trees)

/-- The greatest depth of the members of an object. -/
def membersDepth : List (Option String × Tree) → Nat
  | [] => 0
  | (_, tree) :: members => max (depth tree) (membersDepth members)

end

end Tree

end CellGraph.Json
