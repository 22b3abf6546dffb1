import CellGraph.Configuration
import CellGraph.FileSystem
import CellGraph.Json.Printer
import CellGraph.Package.Media
import CellGraph.Resource

/-!
# Inlined graphs

A graph as a list of inlined files, each under a key: the reference of an import as it is written, the name of any
other file. Plain modules share one payload, a bundle of all of them, and every other file has its own. A key that
another file has taken gives way to the name of the file, and that to its path.
-/

namespace CellGraph.Package

variable {σ : Type}

/-- Makes one module of an entry, whose references lead from a directory; or says why it cannot. -/
abbrev Bundler (σ : Type) := (entry : String) → (directory : Path) → σ → Except String String × σ

/-- Why a graph cannot be inlined. -/
inductive InliningError
  /-- So many modules could not be bundled. -/
  | bundling (modules : Nat) (message : String)
  | unreadable (path : Path) (reason : SystemError)
  deriving DecidableEq, Repr

/-- What is said of a graph that cannot be inlined. -/
def InliningError.message : InliningError → String
  | bundling modules message => "Bundling " ++ toString modules ++ " module(s) failed: " ++ message
  | unreadable path reason => "Failed to read " ++ path.text ++ ": " ++ reason.message

/-- Whether a resource is part of the bundle. -/
def isBundled (config : Configuration) (r : Resource) : Bool := r.isImport && config.isModule r.path

/-- Puts a text into a sorted list of texts that holds each once. -/
def insertText (text : String) : List String → List String
  | [] => [text]
  | other :: texts =>
    if text < other then text :: other :: texts
    else if text = other then other :: texts
    else other :: insertText text texts

/-- Texts in order, each once. -/
def sortTexts (texts : List String) : List String := texts.foldr insertText []

theorem mem_insertText {text other : String} {texts : List String} :
    other ∈ insertText text texts ↔ other = text ∨ other ∈ texts := by
  induction texts with
  | nil => simp [insertText]
  | cons head texts ih =>
    simp only [insertText]
    split
    · simp
    · split
      · rename_i h
        subst h
        simp
      · simp [ih, or_left_comm]

/-- Sorting keeps the texts. -/
theorem mem_sortTexts {text : String} {texts : List String} : text ∈ sortTexts texts ↔ text ∈ texts := by
  induction texts with
  | nil => simp [sortTexts]
  | cons head texts ih => rw [sortTexts, List.foldr_cons, mem_insertText, ← sortTexts, ih, List.mem_cons]

/-- The line of an entry that exports everything of a module. -/
def exportLine (path : String) : String := "export * from " ++ .ofList (Json.quoted path) ++ ";"

/-- A module that exports everything of the modules at some paths, whatever their order. -/
def bundleEntry (paths : List Path) : String := "\n".intercalate ((sortTexts (paths.map Path.text)).map exportLine)

/-- A file under its key. -/
structure Keyed where
  key : String
  owner : Path
  inlined : Inlined
  deriving DecidableEq, Repr

/-- The keys that a resource may have, the first one free or its own is taken. -/
def keys (r : Resource) : List String :=
  [if r.isImport then r.reference else r.filename, r.filename, r.path.text]

/-- Puts a file under the first of some keys that no other file has. -/
def put (taken : List Keyed) (path : Path) (inlined : Inlined) : List String → List Keyed
  | [] => taken
  | key :: keys =>
    match taken.find? fun entry => entry.key == key with
    | none => taken ++ [⟨key, path, inlined⟩]
    | some entry => if entry.owner.same path then taken else put taken path inlined keys

/-- Puts a resource under a key of its own. -/
def insert (taken : List Keyed) (r : Resource) (inlined : Inlined) : List Keyed := put taken r.path inlined (keys r)

/-- Inlines the files of resources in turn. -/
def inlineFiles (fs : FileSystem σ) (s : σ) : List Resource → Except InliningError (List (Resource × Inlined))
  | [] => .ok []
  | r :: rs =>
    match fs.read r.path s with
    | .error reason => .error (.unreadable r.path reason)
    | .ok content => (inlineFiles fs s rs).map ((r, .ofFile r.path content) :: ·)

/-- Bundles modules, if there are any; the payload they share. -/
def bundleModules (bundler : Bundler σ) (directory : Path) (modules : List Resource) (s : σ) :
    Except InliningError (List (Resource × Inlined)) × σ :=
  if modules = [] then (.ok [], s)
  else
    match bundler (bundleEntry (modules.map Resource.path)) directory s with
    | (.error message, s) => (.error (.bundling modules.length message), s)
    | (.ok bundle, s) =>
      let shared := Inlined.make "application/javascript" (Text.encode bundle)
      (.ok (modules.map fun r => (r, shared)), s)

/-- The inlined files of a graph under their keys. -/
def selfContained (fs : FileSystem σ) (config : Configuration) (bundler : Bundler σ) (g : Graph) (s : σ) :
    Except InliningError (List Keyed) × σ :=
  let (modules, others) := g.resources.partition (isBundled config)
  match bundleModules bundler g.rootDirectory modules s with
  | (.error e, s) => (.error e, s)
  | (.ok shared, s) =>
    match inlineFiles fs s others with
    | .error e => (.error e, s)
    | .ok own => (.ok ((shared ++ own).foldl (fun taken (r, inlined) => insert taken r inlined) []), s)

end CellGraph.Package
