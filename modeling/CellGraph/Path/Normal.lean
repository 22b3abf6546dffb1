import CellGraph.Path.Basic

/-!
# Normal paths

`normalize` resolves the points of a path without looking at any file: a step up cancels the name before it, and stays
at the root. `absolute` does so from a working directory on.
-/

namespace CellGraph.Path

/-- One component more at the end of normal components, which come last first. -/
def pushComponent (done : List Component) : Component → List Component
  | .current => done
  | .parent =>
    match done with
    | .normal _ :: rest => rest
    | .root :: _ => done
    | _ => .parent :: done
  | component => component :: done

/-- The normal form of a list of components. -/
def normalComponents (components : List Component) : List Component :=
  (components.foldl pushComponent []).reverse

/-- The path without points, as far as that is possible. -/
def normalize (p : Path) : Path := ofComponents (normalComponents p.components)

/-- The normal form of a path that is taken from a working directory on. -/
def absolute (p workingDirectory : Path) : Path := normalize (workingDirectory.join p)

end CellGraph.Path
