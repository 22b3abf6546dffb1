import CellGraph.Json.Tree

/-!
# Values

A `Value` is what of a text in JSON is kept: numbers that can be read, strings that are texts, and objects whose
members are sorted by name, the last of several with one name. `Value.ofTree?` gives the value of a tree, if it has
one, and `get?` looks up a member.
-/

namespace CellGraph.Json

/-- A value in JSON. The members of an object are sorted by name, and no name occurs twice. -/
inductive Value
  | null
  | bool (value : Bool)
  | number (value : Number)
  | string (value : String)
  | array (elements : List Value)
  | object (members : List (String × Value))
  deriving Repr

/-- Puts a member into a sorted list of members, in place of one with the same name. -/
def putMember {α : Type} (name : String) (value : α) : List (String × α) → List (String × α)
  | [] => [(name, value)]
  | (other, old) :: members =>
    if name < other then (name, value) :: (other, old) :: members
    else if name = other then (name, value) :: members
    else (other, old) :: putMember name value members

namespace Value

/-- The object with the given members. -/
def ofMembers (members : List (String × Value)) : Value :=
  .object (members.foldl (fun sorted (name, value) => putMember name value sorted) [])

/-- The value of a natural number. -/
def ofNat (n : Nat) : Value := .number (.integer n)

/-- The array of the given texts. -/
def ofTexts (texts : List String) : Value := .array (texts.map .string)

/-- A text, or null. -/
def ofText? : Option String → Value
  | some text => .string text
  | none => .null

/-- The member of an object with a name. -/
def get? (name : String) : Value → Option Value
  | object members => (members.find? fun member => member.1 == name).map Prod.snd
  | _ => none

/-- The text that a value is. -/
def text? : Value → Option String
  | string text => some text
  | _ => none

mutual

/-- The value of a tree, if all of it can be kept. -/
def ofTree? : Tree → Option Value
  | .null => some .null
  | .bool b => some (.bool b)
  | .number n => n.number?.map .number
  | .string s => s.map .string
  | .array elements => (ofElements? elements).map .array
  | .object members => (ofMembers? members).map ofMembers

/-- The values of the elements of an array. -/
def ofElements? : List Tree → Option (List Value)
  | [] => some []
  | tree :: trees => do
    let value ← ofTree? tree
    let values ← ofElements? trees
    return value :: values

/-- The members of an object with their values, in the order of the text. -/
def ofMembers? : List (Option String × Tree) → Option (List (String × Value))
  | [] => some []
  | (name, tree) :: members => do
    let name ← name
    let value ← ofTree? tree
    let rest ← ofMembers? members
    return (name, value) :: rest

end

/-- The value that a text says. -/
def parse? (text : String) : Option Value := (Tree.parse? text).bind ofTree?

end Value

end CellGraph.Json
