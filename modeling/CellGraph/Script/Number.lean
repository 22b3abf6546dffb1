import CellGraph.Text.Character

/-!
# Numbers of scripts

Where a numeric literal ends, and which digit sequences are none. A separator stands between two digits. A number that
starts with a superfluous zero takes no separators and no `n`; it is octal unless a digit is eight or nine, and then
may go on as a decimal fraction. No number is followed directly by a digit or an identifier.
-/

namespace CellGraph.Script

open CellGraph.Text

/-- Reads digits with separators between them; `afterDigit` says that the last character was a digit. -/
def digits? (isDigit : Char → Bool) : (afterDigit : Bool) → List Char → Option (List Char)
  | afterDigit, [] => if afterDigit then some [] else none
  | afterDigit, c :: cs =>
    if isDigit c then digits? isDigit true cs
    else if afterDigit then if c == '_' then digits? isDigit false cs else some (c :: cs)
    else none

/-- What follows a number must not continue it. -/
def numberEnd? (cs : List Char) : Option (List Char) :=
  if cs.head?.any fun c => c.isDigit || isIdentifierStart c then none else some cs

/-- Reads an exponent, if one starts here. -/
def exponent? (cs : List Char) : Option (List Char) :=
  match cs with
  | e :: rest =>
    if e == 'e' || e == 'E' then
      match rest with
      | s :: digits => digits? Char.isDigit false (if s == '+' || s == '-' then digits else rest)
      | [] => none
    else some cs
  | [] => some cs

/-- Reads the digits after a decimal point, if there are any, and an exponent. -/
def fraction? (cs : List Char) : Option (List Char) := do
  let rest ← if cs.head?.any Char.isDigit then digits? Char.isDigit false cs else some cs
  exponent? rest

/-- Reads what may follow the integer part of a decimal number. -/
def afterInteger? : List Char → Option (List Char)
  | 'n' :: cs => some cs
  | '.' :: cs => fraction? cs
  | cs => exponent? cs

/-- Reads what may follow the digits of a number that starts with a superfluous zero. -/
def afterOctal? (digits cs : List Char) : Option (List Char) :=
  if digits.any (fun c => c == '8' || c == '9') then
    match cs with
    | '.' :: rest => fraction? rest
    | _ => exponent? cs
  else some cs

/-- Reads the digits of a number in a base of its own, and its suffix. -/
def radixDigits? (isDigit : Char → Bool) (cs : List Char) : Option (List Char) := do
  match ← digits? isDigit false cs with
  | 'n' :: rest => some rest
  | rest => some rest

/-- Reads a number that starts with the given character, a digit or a point before a digit. -/
def number? (first : Char) (cs : List Char) : Option (List Char) := do
  let rest ←
    if first == '.' then fraction? cs
    else if first == '0' then
      match cs with
      | c :: rest =>
        if c == 'x' || c == 'X' then radixDigits? (fun d => (hexValue? d).isSome) rest
        else if c == 'o' || c == 'O' then radixDigits? (fun d => '0' ≤ d && d ≤ '7') rest
        else if c == 'b' || c == 'B' then radixDigits? (fun d => d == '0' || d == '1') rest
        else if c.isDigit then afterOctal? (cs.takeWhile Char.isDigit) (cs.dropWhile Char.isDigit)
        else afterInteger? cs
      | [] => some []
    else do
      afterInteger? (← digits? Char.isDigit true cs)
  numberEnd? rest

end CellGraph.Script
