import CellGraph.Path.Basic

/-!
# Paths as seen from a directory

`Path.from?` leads from one path to another by steps up and names, component by component; there is no such path if
a step up stands in the way, or if only the start is absolute.
-/

namespace CellGraph.Path

/-- The way from `base` to `target` once they differ: up from each component left of the base, and down. -/
def upAndDown (target base : List Component) : List Component := base.map (fun _ => .parent) ++ target

/-- The way from `base` to `target`; `moved` says whether a step has been taken already. -/
def wayFrom? (moved : Bool) : (target base : List Component) → Option (List Component)
  | target, [] => some target
  | [], base => some (base.map fun _ => .parent)
  | t :: target, b :: base =>
    if !moved && t = b then wayFrom? false target base
    else if b = .current then (wayFrom? true target base).map (t :: ·)
    else if b = .parent then none
    else some (upAndDown (t :: target) (b :: base))

/-- The path that leads from `base` to `p`. -/
def from? (p base : Path) : Option Path :=
  if p.isAbsolute then
    if base.isAbsolute then (wayFrom? false p.components base.components).map ofComponents else some p
  else if base.isAbsolute then none
  else (wayFrom? false p.components base.components).map ofComponents

end CellGraph.Path
