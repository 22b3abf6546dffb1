/-!
# Syntax trees of scripts

A tree has a kind and, in source order, the trees of its parts; parts that a construct leaves out are absent. Only the
kinds that a later question asks about carry data: names, texts, what a declaration imports or exports.
`Node.preorder` lists the trees inside a tree, each before its parts.
-/

namespace CellGraph.Script

/-- What a syntax tree is a tree of. -/
inductive Kind
  | program
  /-- An identifier that stands for its value. -/
  | name (name : String)
  | privateName (name : String)
  /-- A string literal with its escapes decoded. -/
  | string (value : String)
  /-- A template: its decoded chunks, `none` for one with an invalid escape; parts: the substituted expressions. -/
  | template (chunks : List (Option String))
  /-- A number, a regular expression, `null`, `true` or `false`. -/
  | literal
  | this
  | superclass
  /-- An array literal or array pattern; the flag says whether a comma follows the last element. -/
  | array (trailingComma : Bool)
  | hole
  | spread
  /-- An object literal or object pattern; the flag says whether a comma follows the last property. -/
  | object (trailingComma : Bool)
  /-- A property whose key is the name of its value. -/
  | shorthand (name : String)
  /-- A shorthand property with a default, its part; it has a meaning in patterns only. -/
  | shorthandDefault (name : String)
  /-- A property; parts: key and value. -/
  | property
  /-- A method, getter or setter; parts: key and function. -/
  | method
  | key
  | computedKey
  /-- A function; parts: its name, if any, its parameters and its body. -/
  | function
  | arrow
  /-- A class; parts: decorators, name, superclass and members. -/
  | classDefinition
  | field
  | staticBlock
  | decorator
  | parenthesized
  | unary (operator : String)
  | update (operator : String)
  | binary (operator : String)
  | conditional
  | assignment (operator : String)
  | sequence
  /-- Access to a named member; part: the object. -/
  | member (name : String)
  | privateMember (name : String)
  | index
  /-- A call; parts: the function called, then the arguments. -/
  | call
  /-- A member access or call with an optional link somewhere in its chain. -/
  | chain
  | construction
  | taggedTemplate
  | importCall
  | metaProperty
  | yield
  | await
  | block
  | empty
  | expression
  | variables (keyword : String)
  /-- One variable; parts: its pattern and its initial value, if any. -/
  | declarator
  | conditionalStatement
  | loop
  | jump
  | returned
  | scoped
  | switch
  | switchCase
  | labeled (label : String)
  | thrown
  | guarded
  | handler
  | debugger
  /-- An import of a module. -/
  | importDeclaration (source : String)
  /-- A re-export of everything a module exports, under a name if one is given. -/
  | exportAll (source : String) (name : Option String)
  /-- An export under the given names, of another module if a source is given; part: the declaration, if any. -/
  | exportNamed (source : Option String) (names : List String)
  | exportDefault
  deriving DecidableEq, Repr

/-- A syntax tree: a kind and the trees of the parts in source order. -/
inductive Node
  | mk (kind : Kind) (parts : List Node)
  deriving Repr

namespace Node

/-- The kind of a tree. -/
def kind : Node → Kind
  | mk kind _ => kind

/-- The trees of the parts of a tree. -/
def parts : Node → List Node
  | mk _ parts => parts

/-- A tree without parts. -/
abbrev leaf (kind : Kind) : Node := .mk kind []

mutual

/-- The trees inside a tree, itself first, each before its parts. -/
def preorder : Node → List Node
  | mk kind parts => mk kind parts :: preorderAll parts

/-- The trees inside a list of trees, each before its parts. -/
def preorderAll : List Node → List Node
  | [] => []
  | node :: nodes => preorder node ++ preorderAll nodes

end

mutual

/-- The names that a binding pattern binds. -/
def boundNames : Node → List String
  | mk (.name name) _ => [name]
  | mk (.shorthand name) _ => [name]
  | mk (.shorthandDefault name) _ => [name]
  | mk (.array _) parts => boundNamesAll parts
  | mk (.object _) parts => boundNamesAll parts
  | mk .spread parts => boundNamesAll parts
  | mk .property [_, value] => boundNames value
  | mk (.assignment _) (pattern :: _) => boundNames pattern
  | mk .declarator (pattern :: _) => boundNames pattern
  | mk _ _ => []

/-- The names that a list of binding patterns binds. -/
def boundNamesAll : List Node → List String
  | [] => []
  | node :: nodes => boundNames node ++ boundNamesAll nodes

end

/-- The names that an export declaration gives to what it exports. -/
def exportedNames : Node → List String
  | mk (.exportAll _ name) _ => name.toList
  | mk (.exportNamed _ names) _ => names
  | mk .exportDefault _ => ["default"]
  | mk _ _ => []

end Node

end CellGraph.Script
