import CellGraph.Proofs.Inlining

/-!
# What inlined files hold

The letters of bytes in base64 are read back as these bytes (`bytesOf?_base64`), so a payload says what it was made
from. What stands under a key was put there for a resource that may have this key (`of_mem_insertAll`), and it holds the
bundle, if the resource is bundled, and otherwise what is read from the file of this same resource
(`holds_of_selfContained`).
-/

namespace CellGraph.Package

variable {σ : Type}

/-! ## Reading letters -/

/-- The sixty-four letters in the order of their numbers. -/
def letters : List Char := "ABCDEFGHIJKLMNOPQRSTUVWXYZabcdefghijklmnopqrstuvwxyz0123456789+/".toList

/-- The number of a letter: its place among all letters. -/
def letterNumber? (c : Char) : Option Nat := letters.idxOf? c

/-- The number that some letters write, the first one counting most. -/
def number? (cs : List Char) : Option Nat := (cs.mapM letterNumber?).map fun ns => ns.foldl (fun n d => n * 64 + d) 0

/-- The bytes that letters stand for. Four letters are three bytes; at the end three letters and an equals sign are two
bytes, and two letters and two equals signs are one, if the bits that are left over are zero. -/
def bytesOf? : List Char → Option Text.Bytes
  | [] => some []
  | [a, b, '=', '='] => do
    let n ← number? [a, b]
    if n % 16 = 0 then some [.ofNat (n / 16)] else none
  | [a, b, c, '='] => do
    let n ← number? [a, b, c]
    if n % 4 = 0 then some [.ofNat (n / 1024), .ofNat (n / 4)] else none
  | a :: b :: c :: d :: rest => do
    let n ← number? [a, b, c, d]
    let bytes ← bytesOf? rest
    return .ofNat (n / 65536) :: .ofNat (n / 256) :: .ofNat n :: bytes
  | _ => none

theorem letterNumber?_base64Letter {n : Nat} (h : n < 64) : letterNumber? (base64Letter n) = some n := by
  revert n
  decide

theorem base64Letter_ne_equals {n : Nat} (h : n < 64) : base64Letter n ≠ '=' := by
  revert n
  decide

/-- The letters of some digits write the number that the digits make. -/
theorem number?_map_base64Letter {ds : List Nat} {n : Nat} (h : ∀ d ∈ ds, d < 64)
    (hn : ds.foldl (fun n d => n * 64 + d) 0 = n) : number? (ds.map base64Letter) = some n := by
  have hdigits : (ds.map base64Letter).mapM letterNumber? = some ds := by
    clear hn
    induction ds with
    | nil => rfl
    | cons d ds ih =>
      rw [List.map_cons, List.mapM_cons, letterNumber?_base64Letter (h d List.mem_cons_self),
        ih fun m hm => h m (List.mem_cons_of_mem _ hm)]
      rfl
  rw [number?, hdigits, Option.map_some, hn]

/-- Four letters of which the last one is no equals sign are three bytes, whatever follows them. -/
theorem bytesOf?_cons {a b c d : Char} (hd : d ≠ '=') (rest : List Char) : bytesOf? (a :: b :: c :: d :: rest) = do
    let n ← number? [a, b, c, d]
    let bytes ← bytesOf? rest
    return .ofNat (n / 65536) :: .ofNat (n / 256) :: .ofNat n :: bytes := by
  rw [bytesOf?]
  · rintro - rfl
    exact absurd rfl hd
  · rintro rfl
    exact absurd rfl hd

theorem ofNat_eq_of_mod {n : Nat} {b : UInt8} (h : n % 256 = b.toNat) : UInt8.ofNat n = b :=
  UInt8.toNat_inj.mp (by rw [UInt8.toNat_ofNat']; exact h)

/-- Bytes that are written as letters are read back. -/
theorem bytesOf?_base64 (bytes : Text.Bytes) : bytesOf? (base64 bytes) = some bytes := by
  fun_induction base64 bytes with
  | case1 a b c rest n ih =>
    have hn : n = a.toNat * 65536 + b.toNat * 256 + c.toNat := rfl
    have ha := a.toNat_lt
    have hb := b.toNat_lt
    have hc := c.toNat_lt
    have hnumber : number? ([n / 262144, n / 4096 % 64, n / 64 % 64, n % 64].map base64Letter) = some n :=
      number?_map_base64Letter (by simp; omega) (by simp only [List.foldl]; omega)
    have ha' : UInt8.ofNat (n / 65536) = a := ofNat_eq_of_mod (by omega)
    have hb' : UInt8.ofNat (n / 256) = b := ofNat_eq_of_mod (by omega)
    have hc' : UInt8.ofNat n = c := ofNat_eq_of_mod (by omega)
    simp only [List.map] at hnumber
    rw [bytesOf?_cons (base64Letter_ne_equals (Nat.mod_lt _ (by decide))), hnumber, ih]
    simp [ha', hb', hc']
  | case2 a b n =>
    have hn : n = a.toNat * 256 + b.toNat := rfl
    have ha := a.toNat_lt
    have hb := b.toNat_lt
    have hnumber : number? ([n / 1024, n / 16 % 64, n * 4 % 64].map base64Letter) = some (n * 4) :=
      number?_map_base64Letter (by simp; omega) (by simp only [List.foldl]; omega)
    have ha' : UInt8.ofNat (n * 4 / 1024) = a := ofNat_eq_of_mod (by omega)
    have hb' : UInt8.ofNat n = b := ofNat_eq_of_mod (by omega)
    simp only [List.map] at hnumber
    rw [bytesOf?, hnumber]
    · simp [ha', hb']
    · exact base64Letter_ne_equals (Nat.mod_lt _ (by decide))
  | case3 a =>
    have ha := a.toNat_lt
    have hnumber : number? ([a.toNat / 4, a.toNat * 16 % 64].map base64Letter) = some (a.toNat * 16) :=
      number?_map_base64Letter (by simp; omega) (by simp only [List.foldl]; omega)
    simp only [List.map] at hnumber
    rw [bytesOf?, hnumber]
    simp
  | case4 => rfl

/-- Whether an inlined file is of a media type and holds some bytes. -/
structure Inlined.Holds (i : Inlined) (mediaType : String) (content : Text.Bytes) : Prop where
  mediaType_eq : i.mediaType = mediaType
  payload : ∃ text, i.payload = "data:" ++ mediaType ++ ";base64," ++ .ofList text ∧ bytesOf? text = some content

theorem Inlined.holds_make (mediaType : String) (content : Text.Bytes) :
    (Inlined.make mediaType content).Holds mediaType content := ⟨rfl, base64 content, rfl, bytesOf?_base64 content⟩

/-! ## Graphs -/

section Graphs

variable {fs : FileSystem σ} {config : Configuration} {bundler : Bundler σ} {g : Graph} {s : σ}

/-- What is to be inlined in a way holds the bundle or the file. -/
theorem IsPayload.holds {r : Resource} {i : Inlined} (h : IsPayload fs config bundler g s r i) :
    if r.isImport = true ∧ config.isModule r.path = true then
      ∃ bundle,
        (bundler (bundleEntry ((g.resources.filter (isBundled config)).map Resource.path)) g.rootDirectory s).1 =
        .ok bundle ∧ i.Holds "application/javascript" (Text.encode bundle)
    else
      ∃ content, fs.read r.path (selfContained fs config bundler g s).2 = .ok content ∧
        i.Holds (mediaType r.path content) content := by
  unfold IsPayload isBundled at h
  simp only [Bool.and_eq_true] at h
  split at h
  · rename_i hbundled
    obtain ⟨bundle, hbundle, rfl⟩ := h
    rw [if_pos hbundled]
    exact ⟨bundle, hbundle, Inlined.holds_make _ _⟩
  · rename_i hother
    obtain ⟨content, hcontent, rfl⟩ := h
    rw [if_neg hother]
    exact ⟨content, hcontent, Inlined.holds_make _ _⟩

/-- Each entry of an inlined graph stands under its own key, which one of the resources may have, and holds the bundle
of all modules, if the resource is one of them, and otherwise the bytes of the file of this resource. -/
theorem holds_of_selfContained {entries : List Keyed} (h : (selfContained fs config bundler g s).1 = .ok entries) :
    (entries.map Keyed.key).Nodup ∧ ∀ e ∈ entries, ∃ r ∈ g.resources, e.owner = r.path ∧
      (r.isImport = true ∧ e.key = r.reference ∨ e.key = r.filename ∨ e.key = r.path.text) ∧
      if r.isImport = true ∧ config.isModule r.path = true then
        ∃ bundle,
          (bundler (bundleEntry ((g.resources.filter (isBundled config)).map Resource.path)) g.rootDirectory s).1 =
          .ok bundle ∧ e.inlined.Holds "application/javascript" (Text.encode bundle)
      else
        ∃ content, fs.read r.path (selfContained fs config bundler g s).2 = .ok content ∧
          e.inlined.Holds (mediaType r.path content) content := by
  obtain ⟨files, rfl, hfiles, hpayloads⟩ := exists_files_of_selfContained h
  refine ⟨nodup_insertAll List.nodup_nil, fun e he => ?_⟩
  rcases of_mem_insertAll he with he | ⟨x, hx, hkey, howner, hinlined⟩
  · cases he
  have hr : x.1 ∈ g.resources := mem_inliningOrder.mp (hfiles ▸ List.mem_map_of_mem hx)
  have hkeys : x.1.isImport = true ∧ e.key = x.1.reference ∨ e.key = x.1.filename ∨ e.key = x.1.path.text := by
    unfold keys at hkey
    cases himport : x.1.isImport with
    | false => simpa [himport] using hkey
    | true => simpa [himport] using hkey
  exact ⟨x.1, hr, howner, hkeys, hinlined ▸ (hpayloads x hx).holds⟩

end Graphs

/-! ## A key that gives way -/

namespace SameReference

def disk : Disk where
  entries := [
    (["a.js"], .file (Text.encode "export const a = 1;") false), (["q", "x.ojs"], .file (Text.encode "b = 2") false),
    (["x.ojs"], .file (Text.encode "c") false), (["data.csv"], .file (Text.encode "x,y\n") false), (["q"], .directory)]
  workingDirectory := []

/-- Two scripts are imported by one reference, which is the name of the second one, too. -/
def graph : Graph where
  buildId := ""
  rootDirectory := ⟨"/"⟩
  resources := [
    ⟨"./q/x.ojs", none, "./x.ojs", .directory, .imported, ⟨"/q/x.ojs"⟩⟩,
    ⟨"./x.ojs", none, "./x.ojs", .directory, .imported, ⟨"/x.ojs"⟩⟩,
    ⟨"./data.csv", none, "data.csv", .directory, .attached, ⟨"/data.csv"⟩⟩,
    ⟨"./a.js", none, "./a.js", .directory, .imported, ⟨"/a.js"⟩⟩]
  diagnostics := []
  compiledFiles := []

/-- A bundler that makes nothing of an entry. -/
def bundler : Bundler Disk := fun entry _ d => (.ok entry, d)

/-- The module comes first, and the second script is keyed by its path. -/
theorem holds_of_renamed : ∃ entries, (selfContained Disk.fileSystem {} bundler graph disk).1 = .ok entries ∧
    entries.map Keyed.key = ["./a.js", "./x.ojs", "/x.ojs", "./data.csv"] ∧
    ∀ e ∈ entries, ∃ r ∈ graph.resources, e.owner = r.path ∧
      (r.isImport = true ∧ e.key = r.reference ∨ e.key = r.filename ∨ e.key = r.path.text) ∧
      if r.isImport = true ∧ ({} : Configuration).isModule r.path = true then
        ∃ bundle, (bundler (bundleEntry ((graph.resources.filter (isBundled {})).map Resource.path)) graph.rootDirectory
          disk).1 = .ok bundle ∧ e.inlined.Holds "application/javascript" (Text.encode bundle)
      else
        ∃ content, Disk.fileSystem.read r.path (selfContained Disk.fileSystem {} bundler graph disk).2 = .ok content ∧
          e.inlined.Holds (mediaType r.path content) content := by
  have hkeys : (selfContained Disk.fileSystem {} bundler graph disk).1.toOption.map (·.map Keyed.key) =
      some ["./a.js", "./x.ojs", "/x.ojs", "./data.csv"] := by decide +kernel
  cases hentries : (selfContained Disk.fileSystem {} bundler graph disk).1 with
  | error e =>
    rw [hentries] at hkeys
    cases hkeys
  | ok entries =>
    rw [hentries] at hkeys
    exact ⟨entries, rfl, Option.some.inj hkeys, (holds_of_selfContained hentries).2⟩

end SameReference

end CellGraph.Package
