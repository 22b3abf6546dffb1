import CellGraph.Json.Value
import CellGraph.Text.Quoted

/-!
# Reading values into types

A `Decoder` reads a value into a type or says what is wrong with it. Records are described by `Record`, field by
field: their values are objects, whose other members do not matter, or lists of the fields in order. The first member
in the order of names that does not fit is what is wrong with an object; a field that is missing is so only if all
members fit.
-/

namespace CellGraph.Json

/-- What is wrong with a value. -/
inductive DecodeError
  | wrongType (found : Value) (expected : String)
  | missingField (name : String)
  | unknownVariant (name : String) (variants : List String)
  | wrongLength (length : Nat) (expected : String)
  | severalMembers

/-- A value as a message names it: its kind, and the value itself if it has no parts. -/
def Value.description : Value → String
  | .null => "null"
  | .bool b => "boolean \x60" ++ (if b then "true" else "false") ++ "\x60"
  | .number (.integer n) => "integer \x60" ++ toString n ++ "\x60"
  | .number (.floating x) => "floating point \x60" ++ x.text ++ "\x60"
  | .string s => "string " ++ Text.quoted s
  | .array _ => "sequence"
  | .object _ => "map"

/-- A choice of names as a message lists it. -/
def choice (names : List String) : String :=
  match names.map fun name => "\x60" ++ name ++ "\x60" with
  | [a] => a
  | [a, b] => a ++ " or " ++ b
  | names => "one of " ++ ", ".intercalate names

/-- What is said of a value that does not fit. -/
def DecodeError.message : DecodeError → String
  | wrongType found expected => "invalid type: " ++ found.description ++ ", expected " ++ expected
  | missingField name => "missing field \x60" ++ name ++ "\x60"
  | unknownVariant name variants => "unknown variant \x60" ++ name ++ "\x60, expected " ++ choice variants
  | wrongLength length expected => "invalid length " ++ toString length ++ ", expected " ++ expected
  | severalMembers => "invalid value: map, expected map with a single key"

/-- Reads a value into a type. -/
abbrev Decoder (α : Type) := Value → Except DecodeError α

namespace Decoder

variable {α : Type}

/-- A text. -/
def text : Decoder String
  | .string s => .ok s
  | value => .error (.wrongType value "a string")

/-- A text that stands for a path. -/
def path : Decoder String
  | .string s => .ok s
  | value => .error (.wrongType value "path string")

/-- Nothing, written as null, or something. -/
def optional (decoder : Decoder α) : Decoder (Option α)
  | .null => .ok none
  | value => (decoder value).map some

/-- A list, each element of it in turn. -/
def list (decoder : Decoder α) : Decoder (List α)
  | .array elements => elements.mapM decoder
  | value => .error (.wrongType value "a sequence")

/-- What a name stands for. -/
def named (variants : List (String × α)) (name : String) : Except DecodeError α :=
  match variants.find? fun variant => variant.1 == name with
  | some (_, value) => .ok value
  | none => .error (.unknownVariant name (variants.map Prod.fst))

/-- One of a choice of names: a text, or an object with null under the name. -/
def variant (variants : List (String × α)) : Decoder α
  | .string name => named variants name
  | .object [(name, content)] => do
    let value ← named variants name
    match content with
    | .null => .ok value
    | content => .error (.wrongType content "unit")
  | .object _ => .error .severalMembers
  | value => .error (.wrongType value "string or map")

end Decoder

/-- What a record does without a field. -/
inductive Absence
  /-- The field has to be there. -/
  | refused
  /-- An object may leave the field out. -/
  | null
  /-- The field has a default. -/
  | default
  deriving DecidableEq

/-- A field of a record: its name, whether a value fits it, and whether it may be left out. -/
structure Field where
  name : String
  check : Value → Except DecodeError Unit
  absence : Absence

/-- How to read a record: its fields in order, and the record that the values of its fields make up. -/
structure Record (α : Type) where
  fields : List Field
  read : (String → Option Value) → Except DecodeError α

namespace Record

variable {α β : Type}

/-- The record of a function's result and the fields of its argument. -/
instance : Functor Record where
  map f record := ⟨record.fields, fun values => (record.read values).map f⟩

instance : Seq Record where
  seq f record := ⟨f.fields ++ (record ()).fields, fun values => do
    let f ← f.read values
    return f (← (record ()).read values)⟩

/-- A record of one field. -/
def single (name : String) (decoder : Decoder α) (absence : Absence) (missing : Except DecodeError α) : Record α where
  fields := [⟨name, fun value => (decoder value).map fun _ => (), absence⟩]
  read values :=
    match values name with
    | some value => decoder value
    | none => missing

/-- A field that has to be there. -/
def required (name : String) (decoder : Decoder α) : Record α :=
  single name decoder .refused (.error (.missingField name))

/-- A field that may be null, or be left out. -/
def nullable (name : String) (decoder : Decoder α) : Record (Option α) :=
  single name (Decoder.optional decoder) .null (.ok none)

/-- A field with a default. -/
def defaulted (name : String) (decoder : Decoder α) (value : α) : Record α :=
  single name decoder .default (.ok value)

/-- Checks the members of an object that are fields, in the order of their names. -/
def checkMembers (fields : List Field) : List (String × Value) → Except DecodeError Unit
  | [] => .ok ()
  | (name, value) :: members => do
    if let some field := fields.find? fun field => field.name == name then field.check value
    checkMembers fields members

/-- Checks elements as the fields of a record in order; `count` fields have been read, and `size` says how many there
are. -/
def checkElements (size : String) (count : Nat) : List Field → List Value → Except DecodeError Unit
  | [], [] => .ok ()
  | [], rest => .error (.wrongLength (count + rest.length) "fewer elements in array")
  | field :: fields, [] =>
    if field.absence = .default then checkElements size (count + 1) fields []
    else .error (.wrongLength count ("struct " ++ size))
  | field :: fields, value :: values => do
    field.check value
    checkElements size (count + 1) fields values

/-- Reads a record of the named type. -/
def decode (type : String) (record : Record α) : Decoder α
  | .object members => do
    checkMembers record.fields members
    record.read fun name => (Value.object members).get? name
  | .array elements => do
    checkElements (type ++ " with " ++ toString record.fields.length ++ " elements") 0 record.fields elements
    record.read fun name => ((record.fields.map Field.name).zip elements).lookup name
  | value => .error (.wrongType value ("struct " ++ type))

end Record

end CellGraph.Json
