import CellGraph.Json.Value

/-!
# Writing values

`Value.print` writes a value on one line without spaces. In strings only quotes, backslashes and control characters
are escaped, by a letter where there is one.
-/

namespace CellGraph.Json

/-- A character of a string as it is written. -/
def quotedChar (c : Char) : List Char :=
  match c with
  | '"' => ['\\', '"']
  | '\\' => ['\\', '\\']
  | '\n' => ['\\', 'n']
  | '\r' => ['\\', 'r']
  | '\t' => ['\\', 't']
  | '\x08' => ['\\', 'b']
  | '\x0c' => ['\\', 'f']
  | c =>
    if c.toNat < 32 then ['\\', 'u', '0', '0', Text.hexDigit (c.toNat / 16), Text.hexDigit (c.toNat % 16)] else [c]

/-- A string as it is written, in quotes. -/
def quoted (text : String) : List Char := '"' :: text.toList.flatMap quotedChar ++ ['"']

/-- A number as it is written. -/
def numberText : Number → List Char
  | .integer n => (toString n).toList
  | .floating x => x.text.toList

namespace Value

mutual

/-- A value as it is written. -/
def written : Value → List Char
  | null => "null".toList
  | bool true => "true".toList
  | bool false => "false".toList
  | number n => numberText n
  | string s => quoted s
  | array elements => '[' :: writtenElements elements
  | object members => '{' :: writtenMembers members

/-- The elements of an array with the closing bracket. -/
def writtenElements : List Value → List Char
  | [] => [']']
  | [value] => written value ++ [']']
  | value :: values => written value ++ ',' :: writtenElements values

/-- The members of an object with the closing brace. -/
def writtenMembers : List (String × Value) → List Char
  | [] => ['}']
  | [(name, value)] => quoted name ++ ':' :: written value ++ ['}']
  | (name, value) :: members => quoted name ++ ':' :: written value ++ ',' :: writtenMembers members

end

/-- The text of a value. -/
def print (value : Value) : String := .ofList value.written

end Value

end CellGraph.Json
