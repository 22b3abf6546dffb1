import CellGraph.Disk.Update
import CellGraph.Proofs.NormalPath
import Mathlib.Data.List.Infix

/-!
# Where paths lead when a disk changes

A path leads through directories and links, and only its end can be a file (`Disk.Leads`). So it leads to the same place
on another disk that keeps the directories and links of the first one (`Disk.Keeps`), if what is at its end stays there
(`Disk.locate_of_keeps`, `Disk.entryPlace_of_keeps`). A path that leads to a file names an entry to be removed: the
file, or a link on the way to it (`Disk.exists_entryPlace_of_locate`). Overwriting a file changes what is read there and
nothing else (`Disk.read_put`).
-/

namespace CellGraph

/-- Whether an entry is a file. -/
def Entry.isFile : Entry → Bool
  | .file _ _ => true
  | _ => false

namespace Disk

variable {d d' d'' : Disk} {place x y : Place} {p : Path}

/-- Whether there is a file at a place. -/
def fileAt (d : Disk) (place : Place) : Bool := (d.get? place).any Entry.isFile

theorem exists_of_fileAt (h : d.fileAt x = true) :
    ∃ content executable, d.get? x = some (.file content executable) := by
  obtain ⟨entry, hentry, hfile⟩ := (Option.any_eq_true ..).mp h
  cases entry with
  | file content executable => exact ⟨content, executable, hentry⟩
  | directory | link => cases hfile

@[simp] theorem get?_nil (d : Disk) : d.get? [] = some .directory := by simp [get?]

/-- Whether the entries of a disk form a tree, in which the working directory is a directory. -/
structure WellFormed (d : Disk) : Prop where
  above : ∀ place name, (d.get? (place ++ [name])).isSome = true → d.get? place = some .directory
  workingDirectory : d.get? d.workingDirectory = some .directory

theorem mem_entries_of_isSome (hx : x ≠ []) (h : (d.get? x).isSome = true) : ∃ entry, (x, entry) ∈ d.entries := by
  obtain ⟨entry, hentry⟩ := Option.isSome_iff_exists.mp h
  rw [get?, if_neg hx, List.lookup_eq_some_iff] at hentry
  obtain ⟨before, after, hentries, -⟩ := hentry
  exact ⟨entry, hentries ▸ List.mem_append_right _ List.mem_cons_self⟩

theorem isSome_of_mem_entries {entry : Entry} (h : (x, entry) ∈ d.entries) : (d.get? x).isSome = true := by
  unfold get?
  split
  · rfl
  · cases hlookup : d.entries.lookup x with
    | some entry => rfl
    | none => simpa using List.lookup_eq_none_iff.mp hlookup _ h

/-- It is enough to look above the entries of a disk. -/
theorem wellFormed_iff : d.WellFormed ↔
    (∀ row ∈ d.entries, d.get? row.1.dropLast = some .directory) ∧ d.get? d.workingDirectory = some .directory := by
  constructor
  · rintro ⟨habove, hworking⟩
    refine ⟨fun row hrow => ?_, hworking⟩
    rcases List.eq_nil_or_concat row.1 with hnil | ⟨place, name, hplace⟩
    · rw [hnil]
      exact d.get?_nil
    · rw [List.concat_eq_append] at hplace
      rw [hplace, List.dropLast_concat]
      exact habove place name (hplace ▸ isSome_of_mem_entries hrow)
  · rintro ⟨habove, hworking⟩
    refine ⟨fun place name hsome => ?_, hworking⟩
    obtain ⟨entry, hentry⟩ := mem_entries_of_isSome (by simp) hsome
    have hplace := habove _ hentry
    rwa [List.dropLast_concat] at hplace

instance (d : Disk) : Decidable d.WellFormed := decidable_of_iff' _ wellFormed_iff

/-- Whatever is above something is a directory. -/
theorem WellFormed.directory_above (h : d.WellFormed) {rest : Place} (hrest : rest ≠ [])
    (hx : (d.get? (x ++ rest)).isSome = true) : d.get? x = some .directory := by
  induction rest using List.reverseRecOn with
  | nil => exact absurd rfl hrest
  | append_singleton rest name ih =>
    rw [← List.append_assoc] at hx
    have hparent := h.above _ _ hx
    by_cases hempty : rest = []
    · rwa [hempty, List.append_nil] at hparent
    · exact ih hempty (by rw [hparent]; rfl)

/-- The place above a directory is one. -/
theorem WellFormed.directory_dropLast (h : d.WellFormed) (hx : d.get? x = some .directory) :
    d.get? x.dropLast = some .directory := by
  induction x using List.reverseRecOn with
  | nil => exact hx
  | append_singleton x name _ =>
    rw [List.dropLast_concat]
    exact h.above x name (by rw [hx]; rfl)

/-- Whether a disk keeps the directories and links of another one. -/
structure Keeps (d d' : Disk) : Prop where
  workingDirectory : d'.workingDirectory = d.workingDirectory
  entry : ∀ place entry, d.get? place = some entry → entry.isFile = false → d'.get? place = some entry

theorem Keeps.refl (d : Disk) : d.Keeps d := ⟨rfl, fun _ _ h _ => h⟩

theorem Keeps.trans (h : d.Keeps d') (h' : d'.Keeps d'') : d.Keeps d'' where
  workingDirectory := h'.workingDirectory.trans h.workingDirectory
  entry place entry he hfile := h'.entry place entry (h.entry place entry he hfile) hfile

/-! ## Walking -/

/-- How segments lead from a place to another one, through fewer links than `links`. -/
inductive Leads (d : Disk) : Nat → Place → List (List Char) → Place → Prop
  | arrived {links : Nat} {place : Place} : Leads d (links + 1) place [] place
  | stay {links : Nat} {place q : Place} {segment : List Char} {segments : List (List Char)}
      (hplace : d.get? place = some .directory) (hsegment : segment = [] ∨ segment = ['.'])
      (hrest : Leads d (links + 1) place segments q) : Leads d (links + 1) place (segment :: segments) q
  | up {links : Nat} {place q : Place} {segments : List (List Char)} (hplace : d.get? place = some .directory)
      (hrest : Leads d (links + 1) place.dropLast segments q) : Leads d (links + 1) place (['.', '.'] :: segments) q
  | through {links : Nat} {place q : Place} {segment : List Char} {segments : List (List Char)} {target : String}
      (hplace : d.get? place = some .directory) (hsegment : ¬ (segment = [] ∨ segment = ['.']))
      (hup : segment ≠ ['.', '.']) (hlength : ¬ Text.byteLength segment > maxName)
      (hlink : d.get? (place ++ [.ofList segment]) = some (.link target))
      (hrest : Leads d links (origin place target.toList) (splitSlashes target.toList ++ segments) q) :
      Leads d (links + 1) place (segment :: segments) q
  | down {links : Nat} {place q : Place} {segment : List Char} {segments : List (List Char)} {entry : Entry}
      (hplace : d.get? place = some .directory) (hsegment : ¬ (segment = [] ∨ segment = ['.']))
      (hup : segment ≠ ['.', '.']) (hlength : ¬ Text.byteLength segment > maxName)
      (hentry : d.get? (place ++ [.ofList segment]) = some entry) (hlink : ∀ target, entry ≠ .link target)
      (hrest : Leads d (links + 1) (place ++ [.ofList segment]) segments q) :
      Leads d (links + 1) place (segment :: segments) q

section Walk

variable {q : Place} {links : Nat} {segment : List Char} {segments : List (List Char)}

theorem leads_of_walk (h : d.walk links place segments = .ok q) : d.Leads links place segments q := by
  -- a link takes one of `links` and may bring more segments; every other step takes a segment
  induction links generalizing place segments with
  | zero => cases h
  | succ links ihlinks =>
    rw [walk] at h
    induction segments generalizing place with
    | nil =>
      cases h
      exact .arrived
    | cons segment segments ih =>
      rw [walkSegments] at h
      split at h
      · cases h
      · rename_i hplace
        rw [ne_eq, not_not] at hplace
        split at h
        · rename_i hsegment
          exact .stay hplace hsegment (ih h)
        · rename_i hsegment
          split at h
          · rename_i hup
            subst hup
            exact .up hplace (ih h)
          · rename_i hup
            split at h
            · cases h
            · rename_i hlength
              dsimp only at h
              split at h
              · cases h
              · rename_i target hlink
                exact .through hplace hsegment hup hlength hlink (ihlinks h)
              · rename_i entry hlink hentry
                exact .down hplace hsegment hup hlength hentry (fun target htarget => hlink target htarget) (ih h)

theorem walk_of_leads (h : d.Leads links place segments q) : d.walk links place segments = .ok q := by
  induction h with
  | arrived => rfl
  | stay hplace hsegment _ ih =>
    rw [walk, walkSegments, if_neg (not_not_intro hplace), if_pos hsegment]
    exact ih
  | up hplace _ ih =>
    rw [walk, walkSegments, if_neg (not_not_intro hplace), if_neg (by decide), if_pos rfl]
    exact ih
  | through hplace hsegment hup hlength hlink _ ih =>
    rw [walk, walkSegments, if_neg (not_not_intro hplace), if_neg hsegment, if_neg hup, if_neg hlength]
    simp only [hlink]
    exact ih
  | @down _ _ _ _ _ entry hplace hsegment hup hlength hentry hlink _ ih =>
    rw [walk, walkSegments, if_neg (not_not_intro hplace), if_neg hsegment, if_neg hup, if_neg hlength]
    cases entry with
    | link target => exact absurd rfl (hlink target)
    | file content executable =>
      simp only [hentry]
      exact ih
    | directory =>
      simp only [hentry]
      exact ih

theorem walk_eq_ok_iff : d.walk links place segments = .ok q ↔ d.Leads links place segments q :=
  ⟨leads_of_walk, walk_of_leads⟩

/-- From a file no segment leads on. -/
theorem Leads.of_fileAt (h : d.Leads links x segments q) (hx : d.fileAt x = true) : segments = [] ∧ q = x := by
  have hdirectory : d.get? x ≠ some .directory := fun hdirectory => by
    rw [fileAt, hdirectory] at hx
    cases hx
  cases h with
  | arrived => exact ⟨rfl, rfl⟩
  | stay hplace | up hplace | through hplace | down hplace => exact absurd hplace hdirectory

/-- The same segments lead to the same place on a disk that keeps directories and links. -/
theorem Leads.of_keeps (h : d.Leads links place segments q) (hkeeps : d.Keeps d')
    (hq : d.fileAt q = true → d'.fileAt q = true) : d'.Leads links place segments q := by
  induction h with
  | arrived => exact .arrived
  | stay hplace hsegment _ ih => exact .stay (hkeeps.entry _ _ hplace rfl) hsegment (ih hq)
  | up hplace _ ih => exact .up (hkeeps.entry _ _ hplace rfl) (ih hq)
  | through hplace hsegment hup hlength hlink _ ih =>
    exact .through (hkeeps.entry _ _ hplace rfl) hsegment hup hlength (hkeeps.entry _ _ hlink rfl) (ih hq)
  | @down _ place _ segment _ entry hplace hsegment hup hlength hentry hlink hrest ih =>
    cases hfile : entry.isFile with
    | false =>
      exact .down (hkeeps.entry _ _ hplace rfl) hsegment hup hlength (hkeeps.entry _ _ hentry hfile) hlink (ih hq)
    | true =>
      -- a file is where the segments lead
      have hfileAt : d.fileAt (place ++ [.ofList segment]) = true := by
        rw [fileAt, hentry]
        exact hfile
      obtain ⟨rfl, rfl⟩ := hrest.of_fileAt hfileAt
      obtain ⟨content, executable, hentry'⟩ := exists_of_fileAt (hq hfileAt)
      exact .down (hkeeps.entry _ _ hplace rfl) hsegment hup hlength hentry' (fun _ => Entry.noConfusion) (ih hq)

/-- What follows some segments leads on from where they lead. -/
theorem Leads.exists_append {rest : List (List Char)} (h : d.Leads links place (segments ++ rest) q) :
    ∃ mid left, d.Leads links place segments mid ∧ d.Leads (left + 1) mid rest q := by
  induction links generalizing place segments with
  | zero => cases h
  | succ links ihlinks =>
    induction segments generalizing place with
    | nil => exact ⟨place, links, .arrived, h⟩
    | cons segment segments ih =>
      cases h with
      | stay hplace hsegment hrest =>
        obtain ⟨mid, left, habove, hlast⟩ := ih hrest
        exact ⟨mid, left, .stay hplace hsegment habove, hlast⟩
      | up hplace hrest =>
        obtain ⟨mid, left, habove, hlast⟩ := ih hrest
        exact ⟨mid, left, .up hplace habove, hlast⟩
      | through hplace hsegment hup hlength hlink hrest =>
        obtain ⟨mid, left, habove, hlast⟩ := ihlinks (List.append_assoc .. ▸ hrest)
        exact ⟨mid, left, .through hplace hsegment hup hlength hlink habove, hlast⟩
      | down hplace hsegment hup hlength hentry hlink hrest =>
        obtain ⟨mid, left, habove, hlast⟩ := ih hrest
        exact ⟨mid, left, .down hplace hsegment hup hlength hentry hlink habove, hlast⟩

end Walk

/-! ## Paths -/

theorem locate_eq_ok_iff : d.locate p = .ok x ↔
    checkPath p = .ok () ∧ d.Leads (maxLinks + 1) (origin d.workingDirectory p.chars) (splitSlashes p.chars) x := by
  rw [← walk_eq_ok_iff, locate]
  cases checkPath p with
  | ok => exact Iff.intro (fun h => ⟨rfl, h⟩) (fun h => h.2)
  | error e => exact Iff.intro (fun h => nomatch h) (fun h => nomatch h.1)

/-- A path leads to a regular file if one is where it leads. -/
theorem isFile_iff : d.isFile p = true ↔ ∃ x, d.locate p = .ok x ∧ d.fileAt x = true := by
  cases hx : d.locate p with
  | error e =>
    simp only [isFile, read, hx, bind, Except.bind]
    exact Iff.intro (fun h => nomatch h) fun ⟨_, h, _⟩ => nomatch h
  | ok x =>
    have hfile : d.isFile p = d.fileAt x := by
      simp only [isFile, read, hx, bind, Except.bind, fileAt]
      cases d.get? x with
      | none => rfl
      | some entry => cases entry <;> rfl
    rw [hfile]
    exact ⟨fun h => ⟨x, rfl, h⟩, fun ⟨y, hy, h⟩ => Except.ok.inj hy ▸ h⟩

theorem isFile_of_readText {text : String} (h : fileSystem.readText p d = .ok text) : d.isFile p = true := by
  unfold isFile
  cases hread : d.read p with
  | ok content => rfl
  | error e =>
    simp only [FileSystem.readText, fileSystem, hread, bind, Except.bind] at h
    cases h

theorem exists_splitSlashes_eq (text : List Char) : ∃ above last, splitSlashes text = above ++ [last] :=
  ⟨_, _, (List.dropLast_append_getLast (splitSlashes_ne_nil text)).symm⟩

/-- What a path names is in the directory that all but its last segment lead to. -/
theorem entryPlace_eq_ok_iff : d.entryPlace p = .ok x ↔
    checkPath p = .ok () ∧ ∃ above last name place, splitSlashes p.chars = above ++ [last] ∧
      segmentComponent? last = some (.normal name) ∧
      d.Leads (maxLinks + 1) (origin d.workingDirectory p.chars) above place ∧ d.get? place = some .directory ∧
      x = place ++ [name] ∧ (d.get? x).isSome = true := by
  simp only [← walk_eq_ok_iff]
  constructor
  · intro h
    obtain ⟨above, last, hsplit⟩ := exists_splitSlashes_eq p.chars
    unfold entryPlace at h
    rw [hsplit, List.reverse_concat] at h
    cases hpath : checkPath p with
    | error e =>
      rw [hpath] at h
      cases h
    | ok =>
      cases hwalk : d.walk (maxLinks + 1) (origin d.workingDirectory p.chars) above with
      | error e =>
        simp only [hpath, List.reverse_reverse, hwalk, bind, Except.bind] at h
        split at h <;> cases h
      | ok place =>
        simp only [hpath, List.reverse_reverse, hwalk, bind, Except.bind] at h
        split at h
        · rename_i name hname
          split at h
          · cases h
          · rename_i hplace
            split at h
            · rename_i hx
              cases h
              exact ⟨rfl, above, last, name, place, hsplit, hname, hwalk, not_not.mp hplace, rfl, hx⟩
            · cases h
        · cases h
  · rintro ⟨hpath, above, last, name, place, hsplit, hname, hwalk, hplace, rfl, hx⟩
    unfold entryPlace
    rw [hpath, hsplit, List.reverse_concat]
    simp only [bind, Except.bind, hname, List.reverse_reverse, hwalk, hplace, hx, ne_eq, not_true_eq_false, if_false,
      if_true]

theorem isSome_of_entryPlace (h : d.entryPlace p = .ok x) : (d.get? x).isSome = true := by
  obtain ⟨-, _, _, _, _, -, -, -, -, -, hx⟩ := entryPlace_eq_ok_iff.mp h
  exact hx

/-- A path leads to the same place on a disk that keeps directories and links. -/
theorem locate_of_keeps (hkeeps : d.Keeps d') (hx : d.fileAt x = true → d'.fileAt x = true)
    (h : d.locate p = .ok x) : d'.locate p = .ok x := by
  rw [locate_eq_ok_iff] at h ⊢
  rw [hkeeps.workingDirectory]
  exact ⟨h.1, h.2.of_keeps hkeeps hx⟩

/-- A path names the same entry on a disk that keeps directories and links, if there is one. -/
theorem entryPlace_of_keeps (hkeeps : d.Keeps d') (hx : (d'.get? x).isSome = true)
    (h : d.entryPlace p = .ok x) : d'.entryPlace p = .ok x := by
  rw [entryPlace_eq_ok_iff] at h ⊢
  obtain ⟨hpath, above, last, name, place, hsplit, hname, hleads, hplace, rfl, -⟩ := h
  refine ⟨hpath, above, last, name, place, hsplit, hname, ?_, hkeeps.entry _ _ hplace rfl, rfl, hx⟩
  rw [hkeeps.workingDirectory]
  refine hleads.of_keeps hkeeps fun hfile => ?_
  rw [fileAt, hplace] at hfile
  cases hfile

/-- A path that leads to a file names it, or a link on the way to it. -/
theorem exists_entryPlace_of_locate (hd : d.WellFormed) (hx : d.fileAt x = true) (h : d.locate p = .ok x) :
    ∃ y, d.entryPlace p = .ok y ∧ (y = x ∨ ∃ target, d.get? y = some (.link target)) := by
  obtain ⟨hpath, hleads⟩ := locate_eq_ok_iff.mp h
  have hdirectory : d.get? x ≠ some .directory := fun hdirectory => by
    rw [fileAt, hdirectory] at hx
    cases hx
  obtain ⟨above, last, hsplit⟩ := exists_splitSlashes_eq p.chars
  rw [hsplit] at hleads
  obtain ⟨mid, left, habove, hlast⟩ := hleads.exists_append
  cases hlast with
  | stay hmid _ hrest =>
    cases hrest
    exact absurd hmid hdirectory
  | up hmid hrest =>
    cases hrest
    exact absurd (hd.directory_dropLast hmid) hdirectory
  | through hmid hsegment hup _ hlink hrest =>
    have hname := segmentComponent?_eq_normal_iff.mpr ⟨mt Or.inl hsegment, mt Or.inr hsegment, hup⟩
    exact ⟨_, entryPlace_eq_ok_iff.mpr ⟨hpath, above, last, _, mid, hsplit, hname, habove, hmid,
      rfl, by rw [hlink]; rfl⟩, Or.inr ⟨_, hlink⟩⟩
  | down hmid hsegment hup _ hentry _ hrest =>
    have hname := segmentComponent?_eq_normal_iff.mpr ⟨mt Or.inl hsegment, mt Or.inr hsegment, hup⟩
    cases hrest
    exact ⟨_, entryPlace_eq_ok_iff.mpr ⟨hpath, above, last, _, mid, hsplit, hname, habove, hmid,
      rfl, by rw [hentry]; rfl⟩, Or.inl rfl⟩

/-! ## Overwriting files -/

section Overwriting

variable {content : Text.Bytes} {executable : Bool}

/-- Where a file is overwritten there is another one, and all else stays as it is. -/
theorem get?_put_of_file (h : d.get? place = some (.file content executable)) (entry : Entry) (other : Place) :
    (d.put place entry).get? other = if other = place then some entry else d.get? other := by
  have hplace : place ≠ [] := by
    rintro rfl
    cases d.get?_nil.symm.trans h
  split
  · rename_i hother
    rw [hother, d.get?_put entry hplace]
  · rename_i hother
    exact d.get?_put_of_ne entry hother

/-- Overwriting a file changes no way. -/
theorem walk_put (h : d.get? place = some (.file content executable)) (content' : Text.Bytes) (links : Nat) :
    (d.put place (.file content' executable)).walk links = d.walk links := by
  induction links with
  | zero => rfl
  | succ links ih =>
    rw [walk, walk, ih]
    funext x segments
    induction segments generalizing x with
    | nil => rfl
    | cons segment segments ihsegments =>
      rw [walkSegments, walkSegments]
      simp only [get?_put_of_file h, ihsegments]
      have hx : (if x = place then some (Entry.file content' executable) else d.get? x) ≠ some .directory ↔
          d.get? x ≠ some .directory := by
        split
        · simp [*]
        · rfl
      by_cases hnext : x ++ [.ofList segment] = place
      · simp only [hx, hnext, if_true, h]
      · simp only [hx, hnext, if_false]

theorem locate_put (h : d.get? place = some (.file content executable)) (content' : Text.Bytes) (p : Path) :
    (d.put place (.file content' executable)).locate p = d.locate p := by
  unfold locate
  rw [walk_put h]
  rfl

/-- Overwriting a file changes what is read there and nothing else. -/
theorem read_put (h : d.get? place = some (.file content executable)) (content' : Text.Bytes) (p : Path) :
    (d.put place (.file content' executable)).read p =
      if d.locate p = .ok place then .ok content' else d.read p := by
  unfold read
  rw [locate_put h]
  cases hx : d.locate p with
  | error e => rfl
  | ok x =>
    simp only [bind, Except.bind, get?_put_of_file h, Except.ok.injEq]
    split_ifs <;> rfl

/-- To overwrite a file changes nothing about which paths lead to files. -/
theorem isFile_put (h : d.get? place = some (.file content executable)) (content' : Text.Bytes) (p : Path) :
    (d.put place (.file content' executable)).isFile p = d.isFile p := by
  unfold isFile
  rw [read_put h]
  split
  · rename_i hp
    have hread : d.read p = .ok content := by simp only [read, hp, h, bind, Except.bind]
    rw [hread]
    rfl
  · rfl

end Overwriting

end Disk

end CellGraph
