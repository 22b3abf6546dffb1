import CellGraph.Project
import CellGraph.Proofs.Trees
import Mathlib.Data.List.Lex
import Mathlib.Data.Prod.Lex
import Mathlib.Data.String.Basic

/-!
# Which files of a project are its documents

Paths are in the order of keys of their components (`Path.before_iff`). So the documents of a project, which are sorted
without regard to the order in which files are listed, stand in a strict order, and they are all the files of its tree
that hold script cells and are in no skipped directory (`Disk.projectDocuments_exact`).
-/

namespace CellGraph

/-! ## The order of paths -/

/-- What a component is ordered by: its place among those of other kinds, and its name. -/
def Component.key (c : Component) : ℕ ×ₗ String :=
  toLex (c.rank, match c with
    | .normal name => name
    | _ => "")

theorem Component.key_injective : Function.Injective Component.key := by
  intro a b h
  have hkey : (ofLex a.key).1 = (ofLex b.key).1 ∧ (ofLex a.key).2 = (ofLex b.key).2 := by rw [h]; simp
  cases a <;> cases b <;> simp_all [key, rank]

theorem Component.before_iff {a b : Component} : a.before b = true ↔ a.key < b.key := by
  rw [Prod.Lex.lt_iff]
  cases a <;> cases b <;> simp [before, key, rank]

namespace Path

variable {p q : Path}

/-- What a path is ordered by. -/
def key (p : Path) : List (ℕ ×ₗ String) := p.components.map Component.key

theorem componentsBefore_iff {cs ds : List Component} :
    componentsBefore cs ds = true ↔ cs.map Component.key < ds.map Component.key := by
  induction cs generalizing ds with
  | nil => cases ds <;> simp [componentsBefore]
  | cons c cs ih =>
    cases ds with
    | nil => simp [componentsBefore]
    | cons d ds =>
      simp only [componentsBefore, Bool.or_eq_true, Bool.and_eq_true, beq_iff_eq, List.map_cons, List.cons_lt_cons_iff,
        Component.before_iff, Component.key_injective.eq_iff, ih]

theorem before_iff : p.before q = true ↔ p.key < q.key := componentsBefore_iff

theorem key_eq_iff : p.key = q.key ↔ p.components = q.components :=
  (List.map_injective_iff.mpr Component.key_injective).eq_iff

end Path

/-! ## Documents -/

theorem isSkippedDirectory_eq_false_iff {name : String} : isSkippedDirectory name = false ↔
    name.toList.head? ≠ some '.' ∧ name.toList.head? ≠ some '_' ∧ name ≠ "node_modules" := by
  unfold isSkippedDirectory
  cases hname : name.toList with
  | nil =>
    obtain rfl : name = "" := String.toList_eq_nil_iff.mp hname
    decide
  | cons c cs => simp [and_assoc]

section Documents

variable {σ : Type} {fs : FileSystem σ} {config : Configuration} {s : σ} {p : Path}

theorem isScriptDocument_iff : isScriptDocument fs config s p = true ↔ config.isDocument p = true ∧
    ∃ text, fs.readText p s = .ok text ∧ Document.scriptCells config p text ≠ [] := by
  unfold isScriptDocument
  rw [Bool.and_eq_true]
  cases fs.readText p s <;> simp

theorem mem_projectDocuments {project : Path} : p ∈ projectDocuments fs config project s ↔
    p ∈ fs.filesBelow isSkippedDirectory project s ∧ isScriptDocument fs config s p = true := by
  rw [projectDocuments, List.mem_mergeSort, List.mem_filter]

/-- The documents of a project stand in a strict order, if no two files are listed with the same components. -/
theorem pairwise_projectDocuments {project : Path}
    (h : (fs.filesBelow isSkippedDirectory project s).Pairwise fun p q => p.components ≠ q.components) :
    (projectDocuments fs config project s).Pairwise fun p q => p.before q = true := by
  have hle : ∀ p q : Path, (!q.before p) = true ↔ p.key ≤ q.key := fun p q => by
    rw [Bool.not_eq_true', ← Bool.not_eq_true, Path.before_iff, not_lt]
  have hsorted : (projectDocuments fs config project s).Pairwise fun p q => (!q.before p) = true := by
    refine List.pairwise_mergeSort (fun p q r hpq hqr => ?_) (fun p q => ?_) _
    · rw [hle] at hpq hqr ⊢
      exact hpq.trans hqr
    · rw [Bool.or_eq_true, hle, hle]
      exact le_total _ _
  have hdistinct : (projectDocuments fs config project s).Pairwise fun p q => p.components ≠ q.components :=
    (List.mergeSort_perm _ _).symm.pairwise (h.filter _) fun hne => hne.symm
  refine (hsorted.and hdistinct).imp fun {p q} hpq => Path.before_iff.mpr ?_
  exact lt_of_le_of_ne ((hle p q).mp hpq.1) fun hkey => hpq.2 (Path.key_eq_iff.mp hkey)

end Documents

namespace Disk

/-- The documents of a project are exactly the files of its tree that hold script cells and are in no directory whose
name starts with a point or an underscore or is that of packages, whatever the name of the project itself, in a strict
order. In what order the files are listed makes no difference. -/
theorem projectDocuments_exact {d : Disk} {project : Path} {root : Place} (h : d.TreeBelow root)
    (hproject : d.locate project = .ok root) (hroot : d.get? root = some .directory) (fs : FileSystem Disk)
    (hfs : (fs.filesBelow isSkippedDirectory project d).Perm (d.filesBelow isSkippedDirectory project))
    (config : Configuration) :
    (projectDocuments fs config project d).Pairwise (fun p q => p.before q = true) ∧
      ∀ p, p ∈ projectDocuments fs config project d ↔ ∃ names, p = project.below names ∧
        d.fileAt (root ++ names) = true ∧ config.isDocument p = true ∧
        (∃ text, fs.readText p d = .ok text ∧ Document.scriptCells config p text ≠ []) ∧
        ∀ name ∈ names.dropLast,
          name.toList.head? ≠ some '.' ∧ name.toList.head? ≠ some '_' ∧ name ≠ "node_modules" := by
  constructor
  · exact pairwise_projectDocuments
      (hfs.symm.pairwise (pairwise_filesBelow h hproject hroot isSkippedDirectory) fun hne => hne.symm)
  · intro p
    rw [mem_projectDocuments, hfs.mem_iff, mem_filesBelow h hproject hroot, isScriptDocument_iff]
    simp only [isSkippedDirectory_eq_false_iff]
    constructor
    · rintro ⟨⟨names, hp, hfile, habove⟩, hdocument, htext⟩
      exact ⟨names, hp, hfile, hdocument, htext, habove⟩
    · rintro ⟨names, hp, hfile, hdocument, htext, habove⟩
      exact ⟨⟨names, hp, hfile, habove⟩, hdocument, htext⟩

/-! ## A site whose own name is to be skipped -/

namespace Site

def source : String := "```{ojs}\nx = 1\n```\n"

def page : Entry := .file (Text.encode source) false

def disk : Disk where
  entries := [
    (["_site"], .directory),
    (["_site", "posts"], .directory),
    (["_site", "posts", "one.qmd"], page),
    (["_site", "posts", ".cache"], .directory),
    (["_site", "posts", ".cache", "two.qmd"], page),
    (["_site", "_notes.md"], page)]
  workingDirectory := []

/-- The disk, but what is below a directory is listed the other way round. -/
def files : FileSystem Disk :=
  { Disk.fileSystem with filesBelow := fun skipped p d => (d.filesBelow skipped p).reverse }

theorem treeBelow_disk : disk.TreeBelow ["_site"] where
  wellFormed := by decide
  nodup := by decide
  entries names entry h := by
    have hname : ∀ row ∈ disk.entries, row.2.isLink = false ∧
        ∀ name ∈ row.1, '/' ∉ name.toList ∧ segmentComponent? name.toList = some (.normal name) ∧
          Text.byteLength name.toList ≤ maxName := by decide +kernel
    obtain ⟨hlink, hnames⟩ := hname _ h
    refine ⟨fun name hmem => ?_, hlink⟩
    obtain ⟨hslash, hcomponent, hlength⟩ := hnames name (List.mem_append_right _ hmem)
    exact ⟨⟨hslash, hcomponent⟩, hlength⟩

/-- Names that start with a point or an underscore count for directories only, and not for that of the project. -/
theorem projectDocuments_site :
    (projectDocuments files {} ⟨"/_site"⟩ disk).Pairwise (fun p q => p.before q = true) ∧
    ⟨"/_site/_notes.md"⟩ ∈ projectDocuments files {} ⟨"/_site"⟩ disk ∧
    ⟨"/_site/posts/one.qmd"⟩ ∈ projectDocuments files {} ⟨"/_site"⟩ disk ∧
    ⟨"/_site/posts/.cache/two.qmd"⟩ ∉ projectDocuments files {} ⟨"/_site"⟩ disk := by
  have hproject : disk.locate ⟨"/_site"⟩ = .ok ["_site"] := by decide +kernel
  obtain ⟨hpairwise, hmem⟩ :=
    projectDocuments_exact treeBelow_disk hproject (by decide) files (List.reverse_perm _) {}
  refine ⟨hpairwise, (hmem _).mpr ?_, (hmem _).mpr ?_, fun htwo => ?_⟩
  · exact ⟨["_notes.md"], by decide, by decide, by decide +kernel,
      ⟨source, by decide +kernel, by decide +kernel⟩, by simp⟩
  · exact ⟨["posts", "one.qmd"], by decide, by decide, by decide +kernel,
      ⟨source, by decide +kernel, by decide +kernel⟩, by decide⟩
  · -- no other names lead to this path
    obtain ⟨names, hp, hfile, -, -, habove⟩ := (hmem _).mp htwo
    obtain ⟨content, executable, hentry⟩ := exists_of_fileAt hfile
    have hplain := (treeBelow_disk.of_get? hentry).1
    have hcomponents := Path.components_below ⟨"/_site"⟩ fun name hname => (hplain name hname).1
    rw [← hp] at hcomponents
    have hnames : names.map Component.normal = ["posts", ".cache", "two.qmd"].map Component.normal :=
      List.append_cancel_left (hcomponents.symm.trans (by decide +kernel))
    obtain rfl := List.map_injective_iff.mpr (fun _ _ => Component.normal.inj) hnames
    exact (habove ".cache" (by decide)).1 (by decide)

end Site

end Disk

end CellGraph
