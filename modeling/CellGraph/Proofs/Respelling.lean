import CellGraph.Proofs.Parents
import CellGraph.Proofs.Reading

/-!
# Other spellings of a root

A build looks at its root in absolute form alone: at its directory, at its path and at the base of the project
(`Builder.build_respelled`). What is read of a file and how depends on its text and its name, so that another spelling
of the file leads to the same graph under another name, or to the same complaint, which quotes the file as it is written
(`Builder.buildDocument_respelled`, `Builder.buildFile_respelled`).
-/

namespace CellGraph

variable {σ : Type}

/-- What came of a build, its graph under another name. -/
def Outcome.named (o : Outcome σ Graph) (id : String) : Outcome σ Graph :=
  o.map fun x => (x.1.map (Graph.named · id), x.2)

/-- The means of a build with another base of the project. -/
def Builder.based (b : Builder σ) (project : Option Path) : Builder σ :=
  { b with config := { b.config with projectRoot := project } }

namespace Build

variable {b : Build σ} {root root' : Root} (project : Option Path)

/-- A build whose means name another base of the project, but whose directories are the same. -/
def based (b : Build σ) (project : Option Path) : Build σ := { b with toBuilder := b.toBuilder.based project }

theorem outcome_based (b : Build σ) (builds : Nat) (result : Option BuildError × Traversal σ) :
    (b.based project).outcome builds result = b.outcome builds result := by
  rcases result with ⟨_ | e, t⟩ <;> rfl

section Based

variable (hb : b.compiler = none)
include hb

theorem obtainSource_based (r : Resource) (t : Traversal σ) :
    (b.based project).obtainSource r t = b.obtainSource r t := by
  rw [obtainSource_eq hb]
  exact obtainSource_eq (b := b.based project) hb r t

theorem step_based (r : Resource) (t : Traversal σ) : (b.based project).step r t = b.step r t := by
  unfold step visitImport
  simp only [obtainSource_based project hb]
  rfl

/-- A run looks at the directories of its build, not at how its means name the base of the project. -/
theorem run_based (fuel : Nat) (t : Traversal σ) : (b.based project).run fuel t = b.run fuel t := by
  induction fuel generalizing t with
  | zero => rfl
  | succ fuel ih => simp only [Build.run, step_based project hb, ih]

end Based

end Build

/-! ## Roots -/

/-- Whether two roots differ only in how their directory and path are written. -/
structure Root.Respells (workingDirectory : Path) (root root' : Root) : Prop where
  cells : root'.cells = root.cells
  dialect : root'.dialect = root.dialect
  directory : root'.directory.absolute workingDirectory = root.directory.absolute workingDirectory
  path : root'.path.map (·.absolute workingDirectory) = root.path.map (·.absolute workingDirectory)

/-- Roots that differ in their spelling start the same traversal. -/
theorem Build.seed_respelled {b : Build σ} {root root' : Root} (h : root.Respells b.workingDirectory root')
    (project : Option Path) (disk : σ) (registry : Registry) :
    (b.based project).seed root' disk registry = b.seed root disk registry := by
  have hbased : (b.based project).seed root' disk registry = b.seed root' disk registry := rfl
  rw [hbased]
  unfold seed
  rw [h.cells, h.dialect, h.path]

namespace Builder

variable {b : Builder σ} {project : Option Path} {fuel : Nat} {s : BuildState σ} {p q : Path}

section Respelled

variable (hproject : project.map (·.absolute b.workingDirectory) =
  b.config.projectRoot.map (·.absolute b.workingDirectory))
include hproject

/-- However a root and the base of the project are spelled, the build is the same but for its name. -/
theorem buildOf_respelled {root root' : Root} (h : root.Respells b.workingDirectory root') (number : Nat) :
    (b.based project).buildOf root' number =
      { (b.buildOf root number).based project with id := root'.buildId number } := by
  have hroots : Roots.make b.workingDirectory root'.directory project =
      Roots.make b.workingDirectory root.directory b.config.projectRoot := by
    unfold Roots.make
    rw [h.directory, hproject]
  have hbuild : (b.based project).buildOf root' number =
      ⟨b.based project, .make b.workingDirectory root'.directory project, root'.buildId number⟩ := rfl
  rw [hbuild, hroots]
  rfl

theorem build_respelled (hb : b.compiler = none) {root root' : Root} (h : root.Respells b.workingDirectory root') :
    (b.based project).build fuel root' s = (b.build fuel root s).named (root'.buildId s.builds) := by
  have hbuild := buildOf_respelled hproject h s.builds
  have hcompiler : ((b.buildOf root s.builds).based project).compiler = none := hb
  -- the name of the build goes first, then the spelling of its root, and the base of the project last
  rw [build_eq_map_run, build_eq_map_run, hbuild, Build.seed_named, Build.run_named hcompiler,
    Build.seed_respelled h, Build.run_based project hb, Outcome.named, Option.map_map]
  refine congrFun (congrArg Option.map (funext fun result => ?_)) _
  rw [Build.outcome_named, Build.outcome_based]
  rfl

end Respelled

/-! ## Files -/

theorem scriptCells_of_fileName?_eq (h : q.fileName? = p.fileName?) (config : Configuration) (text : String) :
    Document.scriptCells config q text = Document.scriptCells config p text := by
  have hextension : q.extension? = p.extension? := by rw [Path.extension?, Path.extension?, h]
  unfold Document.scriptCells Document.cells Document.isNotebook
  rw [hextension]

theorem dialect?_of_fileName?_eq (h : q.fileName? = p.fileName?) (config : Configuration) :
    config.dialect? q = config.dialect? p := by
  have hextension : q.extension = p.extension := by
    rw [Path.extension, Path.extension, Path.extension?, Path.extension?, h]
  unfold Configuration.dialect? Configuration.isModule Configuration.isScript Configuration.isDocument
    Configuration.hasExtension
  rw [hextension]

/-- Whether two paths are spellings of one file: they lead to the same place by a file name, and are read alike. -/
structure Spell (b : Builder σ) (s : BuildState σ) (p q : Path) : Prop where
  isNamed : p.fileName?.isSome = true ∧ q.fileName?.isSome = true
  absolute : q.absolute b.workingDirectory = p.absolute b.workingDirectory
  text : b.files.readText q s.disk = b.files.readText p s.disk

/-- Spellings of one file have its name, and their directories are spellings of its directory. -/
theorem Spell.fileName?_eq (h : b.Spell s p q) : q.fileName? = p.fileName? ∧
    q.directory.absolute b.workingDirectory = p.directory.absolute b.workingDirectory := by
  obtain ⟨name, hname⟩ := Option.isSome_iff_exists.mp h.isNamed.1
  obtain ⟨name', hname'⟩ := Option.isSome_iff_exists.mp h.isNamed.2
  obtain ⟨rfl, hdirectory⟩ := Path.directory_of_absolute_eq hname hname' h.absolute
  exact ⟨hname'.trans hname.symm, hdirectory⟩

/-- What comes of a build when its file is spelled otherwise: the same under another name, or the same complaint about
the file itself. -/
inductive Respells (p q : Path) : Outcome σ Graph → Outcome σ Graph → Prop
  | named (o : Outcome σ Graph) (id : String) : Respells p q o (o.named id)
  | unreadable (reason : SystemError) (s : BuildState σ) :
      Respells p q (some (.error (.unreadableRoot p reason), s)) (some (.error (.unreadableRoot q reason), s))
  | unknown (s : BuildState σ) :
      Respells p q (some (.error (.unknownDialect p), s)) (some (.error (.unknownDialect q), s))

section Files

variable (hb : b.compiler = none) (h : b.Spell s p q) (hproject : project.map (·.absolute b.workingDirectory) =
  b.config.projectRoot.map (·.absolute b.workingDirectory))
include h

/-- The roots that a file is by its spellings differ only in them. -/
theorem Spell.respells (cells : List String) (dialect : Dialect) : Root.Respells b.workingDirectory
    ⟨cells, p.directory, dialect, some p⟩ ⟨cells, q.directory, dialect, some q⟩ where
  cells := rfl
  dialect := rfl
  directory := h.fileName?_eq.2
  path := congrArg some h.absolute

/-- A file is read alike however it is spelled, but the complaint that it cannot be read quotes it. -/
theorem Spell.readRoot_cases (project : Option Path) :
    (∃ text, b.readRoot p s = .ok text ∧ (b.based project).readRoot q s = .ok text) ∨
      ∃ reason, b.readRoot p s = .error (.unreadableRoot p reason) ∧
        (b.based project).readRoot q s = .error (.unreadableRoot q reason) := by
  have hread : (b.based project).readRoot q s = (b.files.readText p s.disk).mapError (.unreadableRoot q) :=
    congrArg (Except.mapError (BuildError.unreadableRoot q)) h.text
  unfold readRoot at hread ⊢
  rw [hread]
  cases b.files.readText p s.disk with
  | ok text => exact Or.inl ⟨text, rfl, rfl⟩
  | error reason => exact Or.inr ⟨reason, rfl, rfl⟩

include hb hproject

theorem build_spelled (cells : List String) (dialect : Dialect) :
    Respells p q (b.build fuel ⟨cells, p.directory, dialect, some p⟩ s)
      ((b.based project).build fuel ⟨cells, q.directory, dialect, some q⟩ s) := by
  rw [build_respelled hproject hb (h.respells cells dialect)]
  exact .named _ _

theorem buildDocument_respelled :
    Respells p q (b.buildDocument fuel p s) ((b.based project).buildDocument fuel q s) := by
  unfold buildDocument
  obtain ⟨text, hp, hq⟩ | ⟨reason, hp, hq⟩ := h.readRoot_cases project
  · rw [hp, hq]
    have hcells : Document.scriptCells (b.based project).config q text = Document.scriptCells b.config p text :=
      scriptCells_of_fileName?_eq h.fileName?_eq.1 b.config text
    simp only [hcells]
    exact build_spelled hb h hproject _ .document
  · rw [hp, hq]
    exact .unreadable reason s

theorem buildFile_respelled : Respells p q (b.buildFile fuel p s) ((b.based project).buildFile fuel q s) := by
  have hdialect : (b.based project).config.dialect? q = b.config.dialect? p :=
    dialect?_of_fileName?_eq h.fileName?_eq.1 b.config
  unfold buildFile
  rw [hdialect]
  cases b.config.dialect? p with
  | none => exact .unknown s
  | some dialect =>
    obtain ⟨text, hp, hq⟩ | ⟨reason, hp, hq⟩ := h.readRoot_cases project
    · cases dialect with
      | document => exact buildDocument_respelled hb h hproject
      | script | plainModule =>
        simp only [hp, hq]
        exact build_spelled hb h hproject [text] _
    · cases dialect with
      | document => exact buildDocument_respelled hb h hproject
      | script | plainModule =>
        simp only [hp, hq]
        exact .unreadable reason s

end Files

/-- How a root is spelled makes no difference to a build without a compiler, nor does the spelling of the project: a
build of a root comes to the same under its own name, and that of a file does so, too, unless it complains of the file
itself. -/
theorem respelled (hb : b.compiler = none) (hproject : project.map (·.absolute b.workingDirectory) =
    b.config.projectRoot.map (·.absolute b.workingDirectory)) (fuel : Nat) (s : BuildState σ) :
    (∀ root root' : Root, root.Respells b.workingDirectory root' →
      (b.based project).build fuel root' s = (b.build fuel root s).named (root'.buildId s.builds)) ∧
    ∀ p q, b.Spell s p q →
      Respells p q (b.buildDocument fuel p s) ((b.based project).buildDocument fuel q s) ∧
        Respells p q (b.buildFile fuel p s) ((b.based project).buildFile fuel q s) :=
  ⟨fun _ _ h => build_respelled hproject hb h,
    fun _ _ h => ⟨buildDocument_respelled hb h hproject, buildFile_respelled hb h hproject⟩⟩

/-! ## A document by another spelling -/

namespace OtherSpelling

def disk : Disk where
  entries := [
    (["w"], .directory),
    (["w", "sub"], .directory),
    (["w", "doc.qmd"], .file (Text.encode "```{ojs}\nimport './a.js'\n```\n```{ojs}\nimport '/b.js'\n```\n") false),
    (["w", "a.js"], .file (Text.encode "import './doc.qmd'") false)]
  workingDirectory := ["w"]

def builder : Builder Disk :=
  { Builder.onDisk with workingDirectory := ⟨"/w"⟩, config := { projectRoot := some ⟨"/w/"⟩ } }

def start : BuildState Disk := ⟨disk, .empty, 0⟩

theorem spell_doc : builder.Spell start ⟨"doc.qmd"⟩ ⟨"/w/.//sub/../doc.qmd"⟩ where
  isNamed := by decide +kernel
  absolute := by decide +kernel
  text := by decide +kernel

/-- The document that is imported is known under both spellings, and the missing module has one name. -/
theorem respelled_doc : ∃ g id t, builder.buildFile 4 ⟨"doc.qmd"⟩ start = some (.ok g, t) ∧
    (builder.based (some ⟨"sub/.."⟩)).buildFile 4 ⟨"/w/.//sub/../doc.qmd"⟩ start = some (.ok (g.named id), t) ∧
    g.resources.map Resource.path = [⟨"/w/a.js"⟩] := by
  obtain ⟨g, t, hbuild, hpaths⟩ := Outcome.exists_of_paths?
    (show (builder.buildFile 4 ⟨"doc.qmd"⟩ start).paths? = some [⟨"/w/a.js"⟩] by decide +kernel)
  have hproject : (some ⟨"sub/.."⟩ : Option Path).map (·.absolute builder.workingDirectory) =
      builder.config.projectRoot.map (·.absolute builder.workingDirectory) := by decide +kernel
  obtain ⟨-, hfile⟩ := (respelled rfl hproject 4 start).2 _ _ spell_doc
  rw [hbuild] at hfile
  generalize (builder.based (some ⟨"sub/.."⟩)).buildFile 4 ⟨"/w/.//sub/../doc.qmd"⟩ start = other at hfile
  cases hfile with
  | named _ id => exact ⟨g, id, t, hbuild, rfl, hpaths⟩

end OtherSpelling

end Builder

end CellGraph
