import CellGraph.Proofs.Inlining
import CellGraph.Proofs.Strings
import Mathlib.Data.List.Sort
import Mathlib.Data.String.Basic

/-!
# What a bundler is given

Texts that are sorted and hold each text once depend on the set of texts alone (`sortTexts_congr`). The lines of an
entry are read back as such texts (`entryPaths?_bundleEntry`), as no path breaks its line. A bundler is asked once, if
there are modules to be bundled, and not at all otherwise (`bundlerCalls_eq`). So what it is given, and what it makes of
it, depends on the paths of the modules alone, as texts (`calls_of_selfContained`).
-/

namespace CellGraph.Package

open Script

variable {σ : Type}

/-! ## Texts in order -/

section Order

variable {text : String} {texts texts' : List String}

theorem pairwise_insertText (h : texts.Pairwise (· < ·)) : (insertText text texts).Pairwise (· < ·) := by
  induction texts with
  | nil => simp [insertText]
  | cons other texts ih =>
    obtain ⟨hother, htexts⟩ := List.pairwise_cons.mp h
    unfold insertText
    split
    · rename_i hlt
      refine List.pairwise_cons.mpr ⟨fun x hx => ?_, h⟩
      rcases List.mem_cons.mp hx with rfl | hx
      · exact hlt
      · exact hlt.trans (hother x hx)
    · split
      · exact h
      · rename_i hlt hne
        have hgt : other < text := lt_of_le_of_ne (not_lt.mp hlt) (Ne.symm hne)
        refine List.pairwise_cons.mpr ⟨fun x hx => ?_, ih htexts⟩
        rcases mem_insertText.mp hx with rfl | hx
        · exact hgt
        · exact hother x hx

theorem pairwise_sortTexts (texts : List String) : (sortTexts texts).Pairwise (· < ·) := by
  induction texts with
  | nil => exact .nil
  | cons text texts ih => exact pairwise_insertText ih

/-- Sorted texts are the same if the same texts are among them, however often and in whatever order. -/
theorem sortTexts_congr (h : ∀ text, text ∈ texts' ↔ text ∈ texts) : sortTexts texts' = sortTexts texts :=
  (pairwise_sortTexts texts').eq_of_mem_iff (pairwise_sortTexts texts) fun text => by
    rw [mem_sortTexts, mem_sortTexts, h]

end Order

/-! ## Entries -/

/-- The path in a line of an entry: a string in JSON between `export * from` and a semicolon. -/
def exportedPath? (line : List Char) : Option String := do
  let quoted ← Text.dropPrefix? "export * from ".toList line
  if quoted.getLast? = some ';' then (← Json.Value.parse? (.ofList quoted.dropLast)).text? else none

/-- The paths in the lines of an entry. -/
def entryPaths? (entry : String) : Option (List String) := (entry.toList.splitOn '\n').mapM exportedPath?

theorem toList_exportLine (path : String) :
    (exportLine path).toList = "export * from ".toList ++ (Json.quoted path ++ [';']) := by
  simp [exportLine]

theorem exportedPath?_exportLine (path : String) : exportedPath? (exportLine path).toList = some path := by
  rw [exportedPath?, toList_exportLine, Text.dropPrefix?_eq_some_iff.mpr rfl]
  simp [Json.parse?_quoted, Json.Value.text?]

/-- A line of an entry is one line, whatever the path. -/
theorem feed_not_mem_exportLine (path : String) : '\n' ∉ (exportLine path).toList := by
  have hquoted : Json.quoted path = '"' :: (escaped path.toList ++ ['"']) := rfl
  have hescaped := feed_not_mem_escaped path.toList
  rw [toList_exportLine, hquoted]
  simp [hescaped]

/-- The lines of an entry are read back as its paths in order, each once. -/
theorem entryPaths?_bundleEntry {paths : List Path} (h : paths ≠ []) :
    entryPaths? (bundleEntry paths) = some (sortTexts (paths.map Path.text)) := by
  have hlines : (bundleEntry paths).toList.splitOn '\n' =
      (sortTexts (paths.map Path.text)).map fun path => (exportLine path).toList := by
    have hne : sortTexts (paths.map Path.text) ≠ [] := by
      obtain ⟨p, hp⟩ := List.exists_mem_of_ne_nil paths h
      exact List.ne_nil_of_mem (mem_sortTexts.mpr (List.mem_map_of_mem hp))
    rw [bundleEntry, String.toList_intercalate, List.map_map]
    refine List.splitOn_intercalate '\n' (fun line hline => ?_) (by simpa using hne)
    obtain ⟨path, -, rfl⟩ := List.mem_map.mp hline
    exact feed_not_mem_exportLine path
  rw [entryPaths?, hlines]
  induction sortTexts (paths.map Path.text) with
  | nil => rfl
  | cons path texts ih =>
    rw [List.map_cons, List.mapM_cons, exportedPath?_exportLine, ih]
    rfl

/-- A path of two lines stands in one line of an entry. -/
example : entryPaths? (bundleEntry [⟨"/b\n.js"⟩, ⟨"/\"a\\.js"⟩, ⟨"/b\n.js"⟩]) = some ["/\"a\\.js", "/b\n.js"] := by
  decide +kernel

/-! ## Calls -/

/-- What a bundler is given: an entry, and the directory that its references lead from. -/
structure BundlerCall where
  entry : String
  directory : Path
  deriving DecidableEq, Repr

/-- A bundler that notes what it is given beside the state of the files. -/
def Bundler.recording (bundler : Bundler σ) : Bundler (σ × List BundlerCall) := fun entry directory s =>
  ((bundler entry directory s.1).1, (bundler entry directory s.1).2, s.2 ++ [⟨entry, directory⟩])

/-- A file system beside which a bundler notes what it is given. -/
def recordedFiles (fs : FileSystem σ) : FileSystem (σ × List BundlerCall) :=
  fs.ofPart Prod.fst fun disk s => (disk, s.2)

/-- What a bundler is given in turn when a graph is inlined. -/
def bundlerCalls (fs : FileSystem σ) (config : Configuration) (bundler : Bundler σ) (g : Graph) (s : σ) :
    List BundlerCall := (selfContained (recordedFiles fs) config bundler.recording g (s, [])).2.2

/-- The paths of the modules of a graph that are bundled. -/
def modulePaths (config : Configuration) (g : Graph) : List Path :=
  (g.resources.filter (isBundled config)).map Resource.path

section Calls

variable (fs : FileSystem σ) (config : Configuration) (bundler : Bundler σ) (g : Graph) (s : σ)

theorem inlineFiles_recorded (calls : List BundlerCall) (rs : List Resource) :
    inlineFiles (recordedFiles fs) (s, calls) rs = inlineFiles fs s rs := by
  induction rs with
  | nil => rfl
  | cons r rs ih =>
    rw [inlineFiles, inlineFiles, ih]
    rfl

theorem bundleModules_recording (directory : Path) (modules : List Resource) :
    bundleModules bundler.recording directory modules (s, []) =
      ((bundleModules bundler directory modules s).1, (bundleModules bundler directory modules s).2,
        if modules = [] then [] else [⟨bundleEntry (modules.map Resource.path), directory⟩]) := by
  unfold bundleModules
  split
  · rfl
  · simp only [Bundler.recording]
    cases bundler (bundleEntry (modules.map Resource.path)) directory s with
    | mk result s' => cases result <;> rfl

/-- A bundler that notes what it is given makes the same of it, and it is given an entry just if there are modules. -/
theorem selfContained_recording : selfContained (recordedFiles fs) config bundler.recording g (s, []) =
    ((selfContained fs config bundler g s).1, (selfContained fs config bundler g s).2,
      if modulePaths config g = [] then [] else [⟨bundleEntry (modulePaths config g), g.rootDirectory⟩]) := by
  unfold selfContained modulePaths
  simp only [List.partition_eq_filter_filter, bundleModules_recording, List.map_eq_nil_iff]
  cases bundleModules bundler g.rootDirectory (g.resources.filter (isBundled config)) s with
  | mk result s' =>
    cases result with
    | error e => rfl
    | ok shared =>
      simp only [inlineFiles_recorded]
      split <;> rfl

theorem bundlerCalls_eq : bundlerCalls fs config bundler g s =
    if modulePaths config g = [] then [] else [⟨bundleEntry (modulePaths config g), g.rootDirectory⟩] :=
  congrArg (fun result => result.2.2) (selfContained_recording fs config bundler g s)

end Calls

/-! ## Payloads -/

/-- What all modules are inlined to if a bundler makes a bundle of their entry. -/
def sharedPayload (bundler : Bundler σ) (paths : List Path) (directory : Path) (s : σ) : Inlined :=
  .make "application/javascript" (Text.encode ((bundler (bundleEntry paths) directory s).1.toOption.getD ""))

/-- Whether entries are those of the resources of a graph in turn, where all its bundled modules share a payload. -/
def Shares (config : Configuration) (g : Graph) (entries : List Keyed) (shared : Inlined) : Prop :=
  ∃ own : List (Resource × Inlined), own.map Prod.fst = g.resources.filter (fun r => !isBundled config r) ∧
    entries = insertAll [] ((g.resources.filter (isBundled config)).map (fun r => (r, shared)) ++ own)

section Payloads

variable {fs : FileSystem σ} {config : Configuration} {bundler : Bundler σ} {g : Graph} {s : σ} {entries : List Keyed}

theorem shares_of_selfContained (h : (selfContained fs config bundler g s).1 = .ok entries) :
    Shares config g entries (sharedPayload bundler (modulePaths config g) g.rootDirectory s) := by
  obtain ⟨files, rfl, hfiles, hpayloads⟩ := exists_files_of_selfContained h
  obtain ⟨modules, own, rfl, hmodules, hown⟩ := List.map_eq_append_iff.mp hfiles
  have hshared : ∀ x ∈ modules, (x.1, sharedPayload bundler (modulePaths config g) g.rootDirectory s) = x := by
    intro x hx
    have hmodule : x.1 ∈ g.resources.filter (isBundled config) := hmodules ▸ List.mem_map_of_mem hx
    have hpayload := hpayloads x (List.mem_append_left _ hx)
    rw [IsPayload, if_pos (List.mem_filter.mp hmodule).2] at hpayload
    obtain ⟨bundle, hbundle, hinlined⟩ := hpayload
    rw [sharedPayload, modulePaths, hbundle]
    exact Prod.ext rfl hinlined.symm
  refine ⟨own, hown, congrArg (fun modules => insertAll [] (modules ++ own)) ?_⟩
  rw [← hmodules, List.map_map]
  exact ((List.map_congr_left hshared).trans (List.map_id _)).symm

theorem bundleEntry_congr {paths paths' : List Path} (h : ∀ p, p ∈ paths' ↔ p ∈ paths) :
    bundleEntry paths' = bundleEntry paths := by
  have htexts : ∀ text, text ∈ paths'.map Path.text ↔ text ∈ paths.map Path.text := by
    simp only [List.mem_map, h, implies_true]
  rw [bundleEntry, bundleEntry, sortTexts_congr htexts]

theorem mem_modulePaths {p : Path} : p ∈ modulePaths config g ↔
    ∃ r ∈ g.resources, r.isImport = true ∧ config.isModule r.path = true ∧ r.path = p := by
  simp [modulePaths, isBundled, and_assoc]

/-- A bundler is asked at most once, and just if there is an import with an extension of modules. The lines of the entry
that it is given are the paths of these imports, in order and each once. So the entry depends on the set of these paths
alone, and so does what the modules share, if nothing fails. -/
theorem calls_of_selfContained (fs : FileSystem σ) (config : Configuration) (bundler : Bundler σ) (g : Graph) (s : σ) :
    (bundlerCalls fs config bundler g s).length ≤ 1 ∧
    (bundlerCalls fs config bundler g s ≠ [] ↔
      ∃ r ∈ g.resources, r.isImport = true ∧ config.isModule r.path = true) ∧
    (∀ call ∈ bundlerCalls fs config bundler g s, call.directory = g.rootDirectory ∧
      ∃ texts, entryPaths? call.entry = some texts ∧ texts.Pairwise (· < ·) ∧ ∀ text, text ∈ texts ↔
        ∃ r ∈ g.resources, r.isImport = true ∧ config.isModule r.path = true ∧ r.path.text = text) ∧
    ∀ g' : Graph, (∀ p, p ∈ modulePaths config g' ↔ p ∈ modulePaths config g) →
      (bundlerCalls fs config bundler g' s).map BundlerCall.entry =
        (bundlerCalls fs config bundler g s).map BundlerCall.entry ∧
      (g'.rootDirectory = g.rootDirectory → ∀ entries entries',
        (selfContained fs config bundler g s).1 = .ok entries →
        (selfContained fs config bundler g' s).1 = .ok entries' →
        ∃ shared, Shares config g entries shared ∧ Shares config g' entries' shared) := by
  have hempty : modulePaths config g ≠ [] ↔ ∃ r ∈ g.resources, r.isImport = true ∧ config.isModule r.path = true := by
    simp [modulePaths, isBundled]
  simp only [bundlerCalls_eq]
  refine ⟨?_, ?_, ?_, fun g' hpaths => ⟨?_, fun hdirectory entries entries' hentries hentries' => ?_⟩⟩
  · split <;> simp
  · rw [← hempty]
    split
    · rename_i hnil
      exact iff_of_false (not_not_intro rfl) (not_not_intro hnil)
    · rename_i hne
      exact iff_of_true (List.cons_ne_nil _ _) hne
  · intro call hcall
    split at hcall
    · cases hcall
    · rename_i hne
      obtain rfl := List.mem_singleton.mp hcall
      refine ⟨rfl, _, entryPaths?_bundleEntry hne, pairwise_sortTexts _, fun text => ?_⟩
      rw [mem_sortTexts, List.mem_map]
      simp only [mem_modulePaths]
      constructor
      · rintro ⟨p, ⟨r, hr, himport, hmodule, rfl⟩, rfl⟩
        exact ⟨r, hr, himport, hmodule, rfl⟩
      · rintro ⟨r, hr, himport, hmodule, rfl⟩
        exact ⟨r.path, ⟨r, hr, himport, hmodule, rfl⟩, rfl⟩
  · have hnil : modulePaths config g' = [] ↔ modulePaths config g = [] := by
      simp only [List.eq_nil_iff_forall_not_mem, hpaths]
    simp only [hnil, bundleEntry_congr hpaths]
    split <;> rfl
  · refine ⟨_, shares_of_selfContained hentries, ?_⟩
    have hshares := shares_of_selfContained hentries'
    rwa [sharedPayload, bundleEntry_congr hpaths, hdirectory] at hshares

end Payloads

/-! ## A graph in another order -/

namespace Reordered

def disk : Disk := ⟨[(["data.csv"], .file (Text.encode "x,y\n") false)], []⟩

/-- The path of the first module is of two lines, and that of the other one has a quote and a backslash in it. -/
def graph : Graph where
  buildId := ""
  rootDirectory := ⟨"/"⟩
  resources := [
    ⟨"./b\n.js", none, "./b\n.js", .directory, .imported, ⟨"/b\n.js"⟩⟩,
    ⟨"./data.csv", none, "data.csv", .directory, .attached, ⟨"/data.csv"⟩⟩,
    ⟨"./\"a\\.js", none, "./\"a\\.js", .directory, .imported, ⟨"/\"a\\.js"⟩⟩]
  diagnostics := []
  compiledFiles := []

/-- The resources from behind, and once more. -/
def again : Graph := { graph with resources := graph.resources.reverse ++ graph.resources }

def bundler : Bundler Disk := fun entry _ d => (.ok entry, d)

theorem calls_again : (∀ p, p ∈ modulePaths {} again ↔ p ∈ modulePaths {} graph) ∧
    (bundlerCalls Disk.fileSystem {} bundler again disk).map BundlerCall.entry =
      (bundlerCalls Disk.fileSystem {} bundler graph disk).map BundlerCall.entry ∧
    ∃ entries entries', (selfContained Disk.fileSystem {} bundler graph disk).1 = .ok entries ∧
      (selfContained Disk.fileSystem {} bundler again disk).1 = .ok entries' ∧
      ∃ shared, Shares {} graph entries shared ∧ Shares {} again entries' shared := by
  have hpaths : ∀ p, p ∈ modulePaths {} again ↔ p ∈ modulePaths {} graph := fun p => by
    simp only [mem_modulePaths, again, List.mem_append, List.mem_reverse, or_self]
  obtain ⟨-, -, -, hagain⟩ := calls_of_selfContained Disk.fileSystem {} bundler graph disk
  obtain ⟨hentry, hshared⟩ := hagain again hpaths
  have hok : (selfContained Disk.fileSystem {} bundler graph disk).1.isOk = true ∧
      (selfContained Disk.fileSystem {} bundler again disk).1.isOk = true := by decide +kernel
  cases hentries : (selfContained Disk.fileSystem {} bundler graph disk).1 with
  | error e =>
    rw [hentries] at hok
    cases hok.1
  | ok entries =>
    cases hentries' : (selfContained Disk.fileSystem {} bundler again disk).1 with
    | error e =>
      rw [hentries'] at hok
      cases hok.2
    | ok entries' =>
      exact ⟨hpaths, hentry, entries, entries', rfl, rfl, hshared rfl entries entries' hentries hentries'⟩

end Reordered

end CellGraph.Package
