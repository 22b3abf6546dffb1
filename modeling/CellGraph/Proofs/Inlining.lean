import CellGraph.Disk.Update
import CellGraph.Package.SelfContained

/-!
# Keys of inlined files

A self-contained graph has one entry for each resource just if one of the keys of each resource is free when its turn
comes (`selfContained_iff_keysSuffice`): the bundled modules first, then the other files. The keys of all files share
one space, and even the last key of a file, its absolute path, can be the reference by which another one is imported:
such a file is left out (`Collision.not_inlined`). Paths that nothing is imported by are enough
(`keysSuffice_of_pairwise`).

Keys are texts, and so are paths here. Paths that are no texts would lose in their keys what is none.
-/

namespace CellGraph.Package

variable {σ : Type}

/-! ## Free keys -/

/-- The first of the keys of a resource that is not taken. -/
def freeKey? (taken : List String) (r : Resource) : Option String := (keys r).find? (· ∉ taken)

/-- Whether each of some resources in turn has a key that is not taken by then. -/
def keysSuffice (taken : List String) : List Resource → Bool
  | [] => true
  | r :: rs =>
    match freeKey? taken r with
    | none => false
    | some key => keysSuffice (taken ++ [key]) rs

/-- Keys suffice if no path is among the keys of a resource before. -/
theorem keysSuffice_of_pairwise {taken : List String} {rs : List Resource}
    (htaken : ∀ r ∈ rs, r.path.text ∉ taken) (h : rs.Pairwise fun x r => r.path.text ∉ keys x) :
    keysSuffice taken rs = true := by
  induction rs generalizing taken with
  | nil => rfl
  | cons r rs ih =>
    obtain ⟨hr, hrs⟩ := List.pairwise_cons.mp h
    unfold keysSuffice
    cases hkey : freeKey? taken r with
    | none =>
      have hpath := List.find?_eq_none.mp hkey r.path.text (by simp [keys])
      exact absurd (decide_eq_true (htaken r List.mem_cons_self)) hpath
    | some key =>
      refine ih (fun x hx hmem => ?_) hrs
      rcases List.mem_append.mp hmem with hmem | hmem
      · exact htaken x (List.mem_cons_of_mem _ hx) hmem
      · exact hr x hx (List.mem_singleton.mp hmem ▸ List.mem_of_find?_eq_some hkey)

/-! ## One file -/

theorem mem_map_key_iff {taken : List Keyed} {key : String} :
    key ∈ taken.map Keyed.key ↔ (taken.find? fun e => e.key == key).isSome = true := by
  rw [List.find?_isSome, List.mem_map]
  simp

/-- A file is put under one of its keys that is not taken, or left out. -/
theorem put_cases (taken : List Keyed) (p : Path) (inlined : Inlined) (ks : List String) :
    put taken p inlined ks = taken ∨
      ∃ key ∈ ks, key ∉ taken.map Keyed.key ∧ put taken p inlined ks = taken ++ [⟨key, p, inlined⟩] := by
  induction ks with
  | nil => exact Or.inl rfl
  | cons key ks ih =>
    unfold put
    cases hfind : taken.find? fun entry => entry.key == key with
    | none =>
      refine Or.inr ⟨key, List.mem_cons_self, ?_, rfl⟩
      rw [mem_map_key_iff, hfind]
      exact Bool.false_ne_true
    | some other =>
      dsimp only
      split
      · exact Or.inl rfl
      · rcases ih with h | ⟨k, hk, hfree, h⟩
        · exact Or.inl h
        · exact Or.inr ⟨k, List.mem_cons_of_mem _ hk, hfree, h⟩

/-- A file is put under its first free key, if there is no other file at its path. -/
theorem put_eq {taken : List Keyed} {p : Path} (h : ∀ e ∈ taken, e.owner.same p = false) (inlined : Inlined)
    (ks : List String) : put taken p inlined ks = taken ++
      ((ks.find? (· ∉ taken.map Keyed.key)).map fun key => ⟨key, p, inlined⟩).toList := by
  induction ks with
  | nil => simp [put]
  | cons key ks ih =>
    unfold put
    cases hfind : taken.find? fun e => e.key == key with
    | none =>
      have hfree : key ∉ taken.map Keyed.key := by
        rw [mem_map_key_iff, hfind]
        exact Bool.false_ne_true
      rw [List.find?_cons_of_pos (by simpa using hfree)]
      rfl
    | some e =>
      have htaken : key ∈ taken.map Keyed.key := by
        rw [mem_map_key_iff, hfind]
        rfl
      rw [List.find?_cons_of_neg (by simpa using htaken), ← ih]
      simp [h e (List.mem_of_find?_eq_some hfind)]

theorem insert_eq {taken : List Keyed} {r : Resource} (h : ∀ e ∈ taken, e.owner.same r.path = false)
    (inlined : Inlined) : insert taken r inlined = taken ++
      ((freeKey? (taken.map Keyed.key) r).map fun key => ⟨key, r.path, inlined⟩).toList :=
  put_eq h inlined (keys r)

/-! ## Files in turn -/

/-- The entries of inlined files that are put under their keys in turn. -/
def insertAll (taken : List Keyed) (files : List (Resource × Inlined)) : List Keyed :=
  files.foldl (fun taken (r, inlined) => insert taken r inlined) taken

section Entries

variable {taken : List Keyed} {files : List (Resource × Inlined)} {e : Keyed}

/-- Entries stay. -/
theorem subset_insertAll (taken : List Keyed) (files : List (Resource × Inlined)) : taken ⊆ insertAll taken files := by
  induction files generalizing taken with
  | nil => exact fun _ he => he
  | cons x files ih =>
    have hinsert : taken ⊆ insert taken x.1 x.2 := by
      rcases put_cases taken x.1.path x.2 (keys x.1) with hput | ⟨key, -, -, hput⟩
      · rw [insert, hput]
        exact fun _ he => he
      · rw [insert, hput]
        exact List.subset_append_left _ _
    exact fun e he => ih _ (hinsert he)

/-- Every entry is of a file that was put there, and holds what this file was inlined to. -/
theorem of_mem_insertAll (h : e ∈ insertAll taken files) :
    e ∈ taken ∨ ∃ x ∈ files, e.key ∈ keys x.1 ∧ e.owner = x.1.path ∧ e.inlined = x.2 := by
  induction files generalizing taken with
  | nil => exact Or.inl h
  | cons x files ih =>
    rcases @ih (insert taken x.1 x.2) h with htaken | ⟨y, hy, hentry⟩
    · rcases put_cases taken x.1.path x.2 (keys x.1) with hput | ⟨key, hkey, -, hput⟩
      · exact Or.inl (hput ▸ htaken)
      · rw [insert, hput] at htaken
        rcases List.mem_append.mp htaken with htaken | hnew
        · exact Or.inl htaken
        · rw [List.mem_singleton.mp hnew]
          exact Or.inr ⟨x, List.mem_cons_self, hkey, rfl, rfl⟩
    · exact Or.inr ⟨y, List.mem_cons_of_mem _ hy, hentry⟩

/-- No key is used twice, whatever files are put there. -/
theorem nodup_insertAll (h : (taken.map Keyed.key).Nodup) : ((insertAll taken files).map Keyed.key).Nodup := by
  induction files generalizing taken with
  | nil => exact h
  | cons x files ih =>
    refine @ih (insert taken x.1 x.2) ?_
    rcases put_cases taken x.1.path x.2 (keys x.1) with hput | ⟨key, -, hfree, hput⟩
    · rwa [insert, hput]
    · rw [insert, hput, List.map_append, List.map_singleton]
      exact List.nodup_append.mpr ⟨h, by simp, by simpa using hfree⟩

end Entries

/-- Whether some files are at different paths, and at other ones than those of some entries. -/
structure Apart (taken : List Keyed) (files : List (Resource × Inlined)) : Prop where
  pairwise : files.Pairwise fun x y => x.1.path.same y.1.path = false
  owners : ∀ e ∈ taken, ∀ x ∈ files, e.owner.same x.1.path = false

section InsertAll

variable {taken : List Keyed} {r : Resource} {inlined : Inlined} {files : List (Resource × Inlined)}

/-- What comes first has no key, or gets one and leaves the rest apart. -/
theorem Apart.insertAll_cons (h : Apart taken ((r, inlined) :: files)) :
    (freeKey? (taken.map Keyed.key) r = none ∧ insertAll taken ((r, inlined) :: files) = insertAll taken files ∧
      Apart taken files) ∨
    ∃ key ∈ keys r, freeKey? (taken.map Keyed.key) r = some key ∧
      insertAll taken ((r, inlined) :: files) = insertAll (taken ++ [⟨key, r.path, inlined⟩]) files ∧
      Apart (taken ++ [⟨key, r.path, inlined⟩]) files := by
  obtain ⟨hr, hfiles⟩ := List.pairwise_cons.mp h.pairwise
  have htaken : ∀ e ∈ taken, ∀ x ∈ files, e.owner.same x.1.path = false :=
    fun e he x hx => h.owners e he x (List.mem_cons_of_mem _ hx)
  have hinsert : insert taken r inlined = taken ++
      ((freeKey? (taken.map Keyed.key) r).map fun key => ⟨key, r.path, inlined⟩).toList :=
    insert_eq (fun e he => h.owners e he _ List.mem_cons_self) inlined
  cases hkey : freeKey? (taken.map Keyed.key) r with
  | none =>
    rw [hkey, Option.map_none, Option.toList_none, List.append_nil] at hinsert
    refine Or.inl ⟨rfl, ?_, hfiles, htaken⟩
    show insertAll (insert taken r inlined) files = _
    rw [hinsert]
  | some key =>
    rw [hkey] at hinsert
    refine Or.inr ⟨key, List.mem_of_find?_eq_some hkey, rfl, ?_, hfiles, fun e he x hx => ?_⟩
    · show insertAll (insert taken r inlined) files = _
      rw [hinsert]
      rfl
    · rcases List.mem_append.mp he with he | he
      · exact htaken e he x hx
      · rw [List.mem_singleton.mp he]
        exact hr x hx

/-- If keys suffice, every file has its entry. -/
theorem Apart.exists_entry (h : Apart taken files)
    (hsuffice : keysSuffice (taken.map Keyed.key) (files.map Prod.fst) = true) {x : Resource × Inlined}
    (hx : x ∈ files) : ∃ e ∈ insertAll taken files, e.key ∈ keys x.1 ∧ e.owner = x.1.path ∧ e.inlined = x.2 := by
  induction files generalizing taken with
  | nil => cases hx
  | cons y files ih =>
    obtain ⟨r, inlined⟩ := y
    rw [List.map_cons, keysSuffice] at hsuffice
    rcases h.insertAll_cons with ⟨hnone, -, -⟩ | ⟨key, hkey, hfree, heq, h⟩
    · rw [hnone] at hsuffice
      cases hsuffice
    · rw [hfree] at hsuffice
      rw [heq]
      rcases List.mem_cons.mp hx with rfl | hx
      · exact ⟨_, subset_insertAll _ _ (List.mem_append_right _ List.mem_cons_self), hkey, rfl, rfl⟩
      · exact ih h (by simpa using hsuffice) hx

/-- If there is an entry for every file, keys suffice. -/
theorem Apart.keysSuffice (h : Apart taken files)
    (hentries : ∀ x ∈ files, ∃ e ∈ insertAll taken files, e.owner = x.1.path) :
    keysSuffice (taken.map Keyed.key) (files.map Prod.fst) = true := by
  induction files generalizing taken with
  | nil => rfl
  | cons y files ih =>
    obtain ⟨r, inlined⟩ := y
    rw [List.map_cons, Package.keysSuffice]
    rcases h.insertAll_cons with ⟨-, heq, hrest⟩ | ⟨key, -, hfree, heq, hrest⟩
    · -- no entry is of the first file, neither one before nor one of the rest
      obtain ⟨e, he, hpath⟩ := hentries _ List.mem_cons_self
      rw [heq] at he
      rcases of_mem_insertAll he with he | ⟨x, hx, -, hx', -⟩
      · have hsame := h.owners e he _ List.mem_cons_self
        rw [hpath, Path.same_refl] at hsame
        cases hsame
      · have hsame := (List.pairwise_cons.mp h.pairwise).1 x hx
        rw [← hpath, hx', Path.same_refl] at hsame
        cases hsame
    · rw [hfree]
      have hkeys := ih hrest fun x hx => heq ▸ hentries x (List.mem_cons_of_mem _ hx)
      simpa using hkeys

/-- There are as many entries as files just if keys suffice, and never more. -/
theorem Apart.length_insertAll (h : Apart taken files) :
    (insertAll taken files).length ≤ taken.length + files.length ∧
      ((insertAll taken files).length = taken.length + files.length ↔
        Package.keysSuffice (taken.map Keyed.key) (files.map Prod.fst) = true) := by
  induction files generalizing taken with
  | nil => exact ⟨Nat.le_refl _, iff_of_true rfl rfl⟩
  | cons y files ih =>
    obtain ⟨r, inlined⟩ := y
    rw [List.map_cons, Package.keysSuffice, List.length_cons]
    rcases h.insertAll_cons with ⟨hnone, heq, h⟩ | ⟨key, -, hfree, heq, h⟩
    · obtain ⟨hle, -⟩ := ih h
      rw [hnone, heq]
      exact ⟨by omega, iff_of_false (by omega) Bool.false_ne_true⟩
    · obtain ⟨hle, hiff⟩ := ih h
      rw [List.length_append, List.length_singleton] at hle hiff
      rw [hfree, heq, ← Nat.add_assoc, Nat.add_right_comm]
      exact ⟨hle, by simpa using hiff⟩

end InsertAll

/-! ## Graphs -/

/-- The resources of a graph in the order in which they get their keys: those that are bundled come first. -/
def inliningOrder (config : Configuration) (g : Graph) : List Resource :=
  g.resources.filter (isBundled config) ++ g.resources.filter fun r => !isBundled config r

section SelfContained

variable (fs : FileSystem σ) (config : Configuration) (bundler : Bundler σ) (g : Graph) (s : σ)

/-- Whether a resource is to be inlined in this way: as the bundle, or as its file is read after the modules have been
bundled. -/
def IsPayload (r : Resource) (inlined : Inlined) : Prop :=
  if isBundled config r then
    ∃ bundle, (bundler (bundleEntry ((g.resources.filter (isBundled config)).map Resource.path)) g.rootDirectory s).1 =
      .ok bundle ∧ inlined = .make "application/javascript" (Text.encode bundle)
  else
    ∃ content, fs.read r.path (selfContained fs config bundler g s).2 = .ok content ∧ inlined = .ofFile r.path content

variable {fs config bundler g s}

theorem mem_inliningOrder {r : Resource} : r ∈ inliningOrder config g ↔ r ∈ g.resources :=
  (List.filter_append_perm (isBundled config) g.resources).mem_iff

theorem inlineFiles_eq_ok {rs : List Resource} {files : List (Resource × Inlined)}
    (h : inlineFiles fs s rs = .ok files) : files.map Prod.fst = rs ∧
      ∀ x ∈ files, ∃ content, fs.read x.1.path s = .ok content ∧ x.2 = .ofFile x.1.path content := by
  induction rs generalizing files with
  | nil =>
    cases h
    exact ⟨rfl, by simp⟩
  | cons r rs ih =>
    rw [inlineFiles] at h
    cases hread : fs.read r.path s with
    | error reason => simp [hread] at h
    | ok content =>
      cases hrest : inlineFiles fs s rs with
      | error e => simp [hread, hrest, Except.map] at h
      | ok rest =>
        obtain ⟨hmap, hfiles⟩ := ih hrest
        obtain rfl : (r, Inlined.ofFile r.path content) :: rest = files := by
          simpa [hread, hrest, Except.map] using h
        refine ⟨by rw [List.map_cons, hmap], fun x hx => ?_⟩
        rcases List.mem_cons.mp hx with rfl | hx
        · exact ⟨content, hread, rfl⟩
        · exact hfiles x hx

theorem bundleModules_eq_ok {modules : List Resource} {directory : Path} {files : List (Resource × Inlined)}
    (h : (bundleModules bundler directory modules s).1 = .ok files) : files.map Prod.fst = modules ∧
      ∀ x ∈ files, ∃ bundle, (bundler (bundleEntry (modules.map Resource.path)) directory s).1 = .ok bundle ∧
        x.2 = .make "application/javascript" (Text.encode bundle) := by
  unfold bundleModules at h
  split at h
  · rename_i hmodules
    cases h
    exact ⟨hmodules.symm, by simp⟩
  · split at h
    · cases h
    · rename_i bundle s' hbundle
      cases h
      refine ⟨by simp [Function.comp_def], fun x hx => ⟨bundle, by rw [hbundle], ?_⟩⟩
      obtain ⟨r, -, rfl⟩ := List.mem_map.mp hx
      rfl

/-- What a graph is inlined to are its resources in turn, each in its way. -/
theorem exists_files_of_selfContained {entries : List Keyed}
    (h : (selfContained fs config bundler g s).1 = .ok entries) :
    ∃ files, entries = insertAll [] files ∧ files.map Prod.fst = inliningOrder config g ∧
      ∀ x ∈ files, IsPayload fs config bundler g s x.1 x.2 := by
  unfold IsPayload
  unfold selfContained at h ⊢
  simp only [List.partition_eq_filter_filter] at h ⊢
  cases hbundle : bundleModules bundler g.rootDirectory (g.resources.filter (isBundled config)) s with
  | mk result s' =>
    rw [hbundle] at h
    cases result with
    | error e => cases h
    | ok shared =>
      obtain ⟨hsharedMap, hshared⟩ := bundleModules_eq_ok (congrArg Prod.fst hbundle)
      cases hown : inlineFiles fs s' (g.resources.filter (not ∘ isBundled config)) with
      | error e => simp [hown] at h
      | ok own =>
        obtain ⟨hownMap, hown'⟩ := inlineFiles_eq_ok hown
        simp only [hown] at h ⊢
        refine ⟨shared ++ own, (Except.ok.inj h).symm, ?_, fun x hx => ?_⟩
        · rw [List.map_append, hsharedMap, hownMap]
          rfl
        · rcases List.mem_append.mp hx with hx | hx
          · have hmodule : x.1 ∈ g.resources.filter (isBundled config) := hsharedMap ▸ List.mem_map_of_mem hx
            rw [if_pos (List.mem_filter.mp hmodule).2]
            exact hshared x hx
          · have hother : x.1 ∈ g.resources.filter (not ∘ isBundled config) := hownMap ▸ List.mem_map_of_mem hx
            rw [if_neg (by simpa using (List.mem_filter.mp hother).2)]
            exact hown' x hx

/-- Every resource of a graph has an entry with what it is to be inlined as just if keys suffice, and just then there
are as many entries as resources. -/
theorem selfContained_iff_keysSuffice (hpaths : g.resources.Pairwise fun r x => r.path.same x.path = false)
    {entries : List Keyed} (h : (selfContained fs config bundler g s).1 = .ok entries) :
    (entries.map Keyed.key).Nodup ∧
    ((∀ r ∈ g.resources, ∃ e ∈ entries, e.key ∈ keys r ∧ e.owner = r.path ∧
        IsPayload fs config bundler g s r e.inlined) ↔ keysSuffice [] (inliningOrder config g) = true) ∧
    (entries.length = g.resources.length ↔ keysSuffice [] (inliningOrder config g) = true) := by
  obtain ⟨files, rfl, hfiles, hpayloads⟩ := exists_files_of_selfContained h
  have horder : (inliningOrder config g).Perm g.resources := List.filter_append_perm (isBundled config) g.resources
  have hapart : Apart [] files := by
    refine ⟨?_, by simp⟩
    have hpairwise := horder.symm.pairwise hpaths fun {r x} hrx => by rwa [Path.same_comm]
    rw [← hfiles] at hpairwise
    exact List.pairwise_map.mp hpairwise
  have hlength : files.length = g.resources.length := by
    rw [← horder.length_eq, ← hfiles, List.length_map]
  refine ⟨nodup_insertAll List.nodup_nil, ⟨fun hentries => ?_, fun hsuffice r hr => ?_⟩, ?_⟩
  · rw [← hfiles]
    refine hapart.keysSuffice fun x hx => ?_
    have hr : x.1 ∈ g.resources := mem_inliningOrder.mp (hfiles ▸ List.mem_map_of_mem hx)
    obtain ⟨e, he, -, howner, -⟩ := hentries x.1 hr
    exact ⟨e, he, howner⟩
  · have hr : r ∈ files.map Prod.fst := hfiles ▸ mem_inliningOrder.mpr hr
    obtain ⟨x, hx, rfl⟩ := List.mem_map.mp hr
    obtain ⟨e, he, hkey, howner, hinlined⟩ := hapart.exists_entry (hfiles ▸ hsuffice) hx
    exact ⟨e, he, hkey, howner, hinlined ▸ hpayloads x hx⟩
  · have hcount := hapart.length_insertAll.2
    rw [hfiles, hlength, List.length_nil, Nat.zero_add] at hcount
    exact hcount

end SelfContained

/-! ## Files that are left out -/

namespace Collision

def disk : Disk where
  entries := [
    (["base", "q", "x.ojs"], .file (Text.encode "a = 1") false),
    (["project", "base", "x.ojs"], .file (Text.encode "b = 2") false),
    (["base", "x.ojs"], .file (Text.encode "c = 3") false),
    (["base"], .directory), (["base", "q"], .directory), (["project"], .directory), (["project", "base"], .directory)]
  workingDirectory := []

/-- The last file is imported as the first one is, and the second one by the path of the last. -/
def graph : Graph where
  buildId := ""
  rootDirectory := ⟨"/base"⟩
  resources := [
    ⟨"./q/x.ojs", none, "./x.ojs", .directory, .imported, ⟨"/base/q/x.ojs"⟩⟩,
    ⟨"/base/x.ojs", none, "/base/x.ojs", .base, .imported, ⟨"/project/base/x.ojs"⟩⟩,
    ⟨"./x.ojs", none, "./x.ojs", .directory, .imported, ⟨"/base/x.ojs"⟩⟩]
  diagnostics := []
  compiledFiles := []

/-- A bundler that makes nothing of an entry. -/
def bundler : Bundler Disk := fun entry _ d => (.ok entry, d)

/-- The last file is left out. -/
theorem not_inlined : ∃ entries, (selfContained Disk.fileSystem {} bundler graph disk).1 = .ok entries ∧
    ¬ (∀ r ∈ graph.resources, ∃ e ∈ entries, e.key ∈ keys r ∧ e.owner = r.path ∧
      IsPayload Disk.fileSystem {} bundler graph disk r e.inlined) ∧ entries.length ≠ graph.resources.length := by
  have hok : (selfContained Disk.fileSystem {} bundler graph disk).1.isOk = true := by decide +kernel
  cases hentries : (selfContained Disk.fileSystem {} bundler graph disk).1 with
  | error e =>
    rw [hentries] at hok
    cases hok
  | ok entries =>
    have hkeys : keysSuffice [] (inliningOrder {} graph) = false := by decide +kernel
    obtain ⟨-, hall, hlength⟩ := selfContained_iff_keysSuffice (by decide +kernel) hentries
    rw [hkeys] at hall hlength
    exact ⟨entries, rfl, fun h => Bool.false_ne_true (hall.mp h), fun h => Bool.false_ne_true (hlength.mp h)⟩

end Collision

end CellGraph.Package
