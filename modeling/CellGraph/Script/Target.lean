import CellGraph.Script.Tree

/-!
# Assignment targets

An array or object that was read as an expression may turn out to be a pattern that is assigned to.
`Node.patternDefaults?` decides whether it is one. Shorthand properties with a default have a meaning in patterns only,
so it also counts those that become meaningful; a script in which some of them do not is refused.
-/

namespace CellGraph.Script

namespace Node

/-- A target that takes a value as it is: a name or a member, in parentheses or not. -/
def isSimpleTarget : Node → Bool
  | mk (.name _) _ => true
  | mk (.member _) _ => true
  | mk (.privateMember _) _ => true
  | mk .index _ => true
  | mk .parenthesized [inner] => isSimpleTarget inner
  | _ => false

mutual

/-- The number of shorthand defaults that get a meaning when an expression is read as a pattern, `none` if it is no
pattern; `inside` says that it stands inside a pattern, where there are holes and a default may follow. -/
def patternDefaults? (inside : Bool) : Node → Option Nat
  | mk (.array trailingComma) elements => elementDefaults? trailingComma elements
  | mk (.object trailingComma) properties => propertyDefaults? trailingComma properties
  | mk .hole _ => if inside then some 0 else none
  | mk (.assignment operator) _ => if inside && operator == "=" then some 0 else none
  | node => if isSimpleTarget node then some 0 else none
termination_by structural node => node

/-- The same for the elements of an array pattern: only the last may take the remaining ones. -/
def elementDefaults? (trailingComma : Bool) : List Node → Option Nat
  | [] => some 0
  | mk .spread [target] :: rest => if rest.isEmpty && !trailingComma then patternDefaults? false target else none
  | node :: rest => (patternDefaults? true node).bind fun n => (elementDefaults? trailingComma rest).map (n + ·)
termination_by structural nodes => nodes

/-- The same for the properties of an object pattern. -/
def propertyDefaults? (trailingComma : Bool) : List Node → Option Nat
  | [] => some 0
  | mk .spread [target] :: rest =>
    if rest.isEmpty && !trailingComma && isSimpleTarget target then some 0 else none
  | mk (.shorthand _) _ :: rest => propertyDefaults? trailingComma rest
  | mk (.shorthandDefault _) _ :: rest => (propertyDefaults? trailingComma rest).map (1 + ·)
  | mk .property [_, value] :: rest =>
    (patternDefaults? true value).bind fun n => (propertyDefaults? trailingComma rest).map (n + ·)
  | _ :: _ => none
termination_by structural nodes => nodes

end

end Node

end CellGraph.Script
