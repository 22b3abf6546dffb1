import CellGraph.Build.Compiler
import CellGraph.Configuration

/-!
# Recovering missing modules

A missing module is compiled from the typed source beside it, if there is one and a compiler to do it. The compiler
lists what the source needs and then writes all of it; files it wrote beside the missing module become resources too.
A compiler that fails, or that does not bring about the module, fails the build.
-/

namespace CellGraph

/-- A module that has been compiled. -/
structure CompiledModule where
  source : String
  /-- The files that were written, the module itself among them. -/
  emitted : List Path
  /-- Resources for the other ones. -/
  siblings : List Resource
  deriving DecidableEq, Repr

/-- The reference from a directory to a file that was written beside a module. -/
def siblingReference (file origin : Path) : String :=
  match file.from? origin with
  | some way =>
    let text := way.text.map fun c => if c = '\\' then '/' else c
    if startsUpward text then text else "./" ++ text
  | none => file.text

/-- The resource for a file that was written beside a missing one. -/
def siblingResource (roots : Roots) (missing : Resource) (file : Path) : Resource where
  filename := roots.filename file .directory
  referent := missing.referent
  reference := siblingReference file (missing.path.parent?.getD ⟨"/"⟩)
  anchor := .directory
  kind := .imported
  path := file

variable {σ : Type}

/-- What remains to be done after a compiler wrote its files: the module is read, and the other files become
resources. -/
def collectEmitted (fs : FileSystem σ) (roots : Roots) (missing : Resource) (files : List Path) (s : σ) :
    Except String CompiledModule :=
  match fs.readText missing.path s with
  | .error reason =>
    .error ("compilation succeeded but " ++ missing.path.text ++ " could not be read: " ++ reason.message)
  | .ok source => .ok {
      source
      emitted := if files.any missing.path.same then files else files ++ [missing.path]
      siblings := (files.filter fun file => !file.same missing.path).map (siblingResource roots missing) }

/-- Compiles a missing module from a typed source. -/
def compileModule (fs : FileSystem σ) (roots : Roots) (compile : Compiler σ) (missing : Resource) (typed : Path)
    (s : σ) : Except String CompiledModule × σ :=
  let (listed, s) := compile (.list typed) s
  if !listed.success then (.error listed.output, s)
  else
    let (emitted, s) := compile (.emit (if listed.files = [] then [typed] else listed.files)) s
    if !emitted.success then (.error emitted.output, s)
    else (collectEmitted fs roots missing emitted.files s, s)

/-- Recovers a missing module. Without a typed source or a compiler there is nothing to recover. -/
def recover (fs : FileSystem σ) (config : Configuration) (roots : Roots) (compiler : Option (Compiler σ))
    (missing : Resource) (s : σ) : Except BuildError (Option CompiledModule) × σ :=
  let typed := missing.path.withExtension config.typedExtension
  match compiler with
  | some compile =>
    if fs.isFile typed s then
      match compileModule fs roots compile missing typed s with
      | (.ok recovered, s) => (.ok (some recovered), s)
      | (.error output, s) => (.error (.compileFailure typed missing.reference missing.referent output), s)
    else (.ok none, s)
  | none => (.ok none, s)

end CellGraph
