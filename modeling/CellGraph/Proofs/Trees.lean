import CellGraph.Proofs.Places
import CellGraph.Proofs.Way
import Mathlib.Data.List.Nodup
import Mathlib.Data.List.Perm.Subperm

/-!
# Files below a directory

Where there are no links, the files below a directory are found by the names that lead down to them
(`Disk.filesIn_eq`), each once (`Disk.nodup_namesBelow`), and no tree is deeper than its disk has entries
(`Disk.WellFormed.length_le`). So what is listed below a directory are all files there but those in skipped directories
(`Disk.mem_filesBelow`), by paths with different components (`Disk.pairwise_filesBelow`).
-/

namespace CellGraph

/-! ## Names behind a path -/

/-- A segment behind a slash adds the component that it is. -/
theorem textComponents_append_slash (text : List Char) {segment : List Char} (h : '/' ∉ segment) :
    textComponents (text ++ '/' :: segment) = textComponents (text ++ ['/']) ++ (segmentComponent? segment).toList := by
  cases hs : splitSlashes text with
  | nil => exact absurd hs (splitSlashes_ne_nil text)
  | cons first rest =>
    have hleft : splitSlashes (text ++ '/' :: segment) = first :: (rest ++ [segment]) := by
      rw [splitSlashes_append, hs, splitSlashes_of_not_mem h, List.cons_append]
    have hright : splitSlashes (text ++ ['/']) = first :: (rest ++ [[]]) := by
      rw [splitSlashes_append, hs]
      rfl
    rw [textComponents_of_splitSlashes (by simp) hleft, textComponents_of_splitSlashes (by simp) hright]
    have hempty : segmentComponent? [] = none := rfl
    cases hsegment : segmentComponent? segment <;> simp [hsegment, hempty]

/-- A slash at the end of a text adds nothing. -/
theorem textComponents_concat_slash {text : List Char} (h : text ≠ []) :
    textComponents (text ++ ['/']) = textComponents text := by
  cases hs : splitSlashes text with
  | nil => exact absurd hs (splitSlashes_ne_nil text)
  | cons first rest =>
    have hleft : splitSlashes (text ++ ['/']) = first :: (rest ++ [[]]) := by
      rw [splitSlashes_append, hs]
      rfl
    rw [textComponents_of_splitSlashes (by simp) hleft, textComponents_of_splitSlashes h hs]
    simp [segmentComponent?]

namespace Path

/-- A plain component that is joined to a path comes behind its own ones. -/
theorem components_join (p : Path) {c : Component} (hc : c.Plain) :
    (p.join ⟨c.text⟩).components = p.components ++ [c] := by
  have hrelative := isAbsolute_of_plain hc
  have hbehind : ∀ text : List Char,
      textComponents (text ++ '/' :: c.text.toList) = textComponents (text ++ ['/']) ++ [c] := by
    intro text
    rw [textComponents_append_slash text hc.1, hc.2]
    rfl
  unfold components
  by_cases hnil : p.chars = []
  · rw [chars_join_of_slash hrelative (Or.inl hnil), hnil]
    exact textComponents_of_plain (List.forall_mem_singleton.mpr hc)
  · by_cases hlast : p.chars.getLast? = some '/'
    · obtain ⟨text, htext⟩ := List.getLast?_eq_some_iff.mp hlast
      have hchars : (p.join ⟨c.text⟩).chars = text ++ '/' :: c.text.toList := by
        rw [chars_join_of_slash hrelative (Or.inr hlast), htext, List.append_assoc]
        rfl
      rw [hchars, hbehind, htext]
    · rw [chars_join hrelative hnil hlast, ← textComponents_concat_slash hnil]
      exact hbehind p.chars

/-- The path that goes on from a path by names. -/
def below (p : Path) (names : List String) : Path := names.foldl (fun p name => p.join ⟨name⟩) p

theorem components_below (p : Path) {names : List String} (h : ∀ name ∈ names, (Component.normal name).Plain) :
    (p.below names).components = p.components ++ names.map .normal := by
  induction names generalizing p with
  | nil => simp [below]
  | cons name names ih =>
    obtain ⟨hname, hnames⟩ := List.forall_mem_cons.mp h
    have hjoin : (p.join ⟨name⟩).components = p.components ++ [.normal name] :=
      p.components_join (c := .normal name) hname
    have hstep : p.below (name :: names) = (p.join ⟨name⟩).below names := rfl
    rw [hstep, ih _ hnames, hjoin, List.map_cons, List.append_assoc, List.singleton_append]

end Path

/-- Whether an entry is a link. -/
def Entry.isLink : Entry → Bool
  | .link _ => true
  | _ => false

namespace Disk

variable {d : Disk} {place x : Place} {name : String} {names : List String} {entry : Entry} {skipped : String → Bool}
variable {p : Path}

/-! ## Trees without links -/

/-- Whether an entry can have a name. -/
def IsName (name : String) : Prop := (Component.normal name).Plain ∧ Text.byteLength name.toList ≤ maxName

/-- Whether what is below a place is a tree without links, each of its entries once and under a name. -/
structure TreeBelow (d : Disk) (place : Place) : Prop where
  wellFormed : d.WellFormed
  nodup : (d.entries.map Prod.fst).Nodup
  entries : ∀ names entry, (place ++ names, entry) ∈ d.entries → (∀ name ∈ names, IsName name) ∧ entry.isLink = false

theorem mem_entries_of_get? (hx : x ≠ []) (h : d.get? x = some entry) : (x, entry) ∈ d.entries := by
  rw [get?, if_neg hx, List.lookup_eq_some_iff] at h
  obtain ⟨before, after, hentries, -⟩ := h
  simp [hentries]

theorem TreeBelow.of_get? (h : d.TreeBelow place) (hentry : d.get? (place ++ names) = some entry) :
    (∀ name ∈ names, IsName name) ∧ entry.isLink = false := by
  by_cases hnil : place ++ names = []
  · obtain ⟨-, rfl⟩ := List.append_eq_nil_iff.mp hnil
    rw [hnil, get?_nil] at hentry
    cases hentry
    simp [Entry.isLink]
  · exact h.entries names entry (mem_entries_of_get? hnil hentry)

theorem TreeBelow.down (h : d.TreeBelow place) (name : String) : d.TreeBelow (place ++ [name]) where
  wellFormed := h.wellFormed
  nodup := h.nodup
  entries names entry hentry := by
    rw [List.append_assoc, List.singleton_append] at hentry
    obtain ⟨hnames, hlink⟩ := h.entries (name :: names) entry hentry
    exact ⟨(List.forall_mem_cons.mp hnames).2, hlink⟩

/-- One name leads down to what is there. -/
theorem TreeBelow.walk (h : d.TreeBelow place) (hplace : d.get? place = some .directory)
    (hentry : d.get? (place ++ [name]) = some entry) :
    d.walk (maxLinks + 1) place [name.toList] = .ok (place ++ [name]) := by
  obtain ⟨hnames, hlink⟩ := h.of_get? hentry
  obtain ⟨⟨-, hname⟩, hlength⟩ := hnames name List.mem_cons_self
  change segmentComponent? name.toList = some (.normal name) at hname
  have hself : String.ofList name.toList = name := String.ofList_toList
  have hnext : d.get? (place ++ [.ofList name.toList]) = some entry := by rw [hself, hentry]
  have hsegment : ¬ (name.toList = [] ∨ name.toList = ['.']) := by
    rintro (e | e) <;>
    · rw [e] at hname
      cases hname
  have hup : name.toList ≠ ['.', '.'] := by
    intro e
    rw [e] at hname
    cases hname
  have hstop : ∀ target, entry ≠ .link target := by
    rintro target rfl
    cases hlink
  have hdown : d.Leads (maxLinks + 1) place [name.toList] (place ++ [.ofList name.toList]) :=
    .down hplace hsegment hup (Nat.not_lt.mpr hlength) hnext hstop .arrived
  rw [hself] at hdown
  exact walk_of_leads hdown

/-! ## What is in a directory -/

theorem mem_children : name ∈ d.children place ↔ ∃ entry, (place ++ [name], entry) ∈ d.entries := by
  unfold children
  rw [List.mem_filterMap]
  constructor
  · rintro ⟨⟨x, entry⟩, hrow, hname⟩
    split at hname
    · rename_i hx
      obtain ⟨above, rfl⟩ := List.getLast?_eq_some_iff.mp hname
      rw [List.dropLast_concat] at hx
      exact ⟨entry, hx.2 ▸ hrow⟩
    · cases hname
  · rintro ⟨entry, hrow⟩
    exact ⟨_, hrow, by simp⟩

theorem isSome_of_mem_children (h : name ∈ d.children place) : (d.get? (place ++ [name])).isSome = true := by
  obtain ⟨entry, hentry⟩ := mem_children.mp h
  exact isSome_of_mem_entries hentry

theorem nodup_children (h : (d.entries.map Prod.fst).Nodup) (place : Place) : (d.children place).Nodup := by
  have hkeys : d.children place =
      (d.entries.map Prod.fst).filterMap fun x => if x ≠ [] ∧ x.dropLast = place then x.getLast? else none := by
    rw [List.filterMap_map]
    rfl
  rw [hkeys]
  refine h.filterMap fun x x' name hx hx' => ?_
  have hplace : ∀ {x : Place}, name ∈ (if x ≠ [] ∧ x.dropLast = place then x.getLast? else none) →
      x = place ++ [name] := by
    intro x hx
    split at hx
    · rename_i habove
      rw [← habove.2]
      exact (List.dropLast_append_getLast? name hx).symm
    · cases hx
  rw [hplace hx, hplace hx']

/-! ## Names that lead to files -/

/-- The names that lead from a place down to files, but for those in directories whose name is to be skipped. -/
def namesBelow (d : Disk) (skipped : String → Bool) : Nat → Place → List (List String)
  | 0, _ => []
  | fuel + 1, place =>
    (d.children place).flatMap fun name =>
      match d.get? (place ++ [name]) with
      | some (.file _ _) => [[name]]
      | some .directory => if skipped name then [] else (d.namesBelow skipped fuel (place ++ [name])).map (name :: ·)
      | _ => []

/-- Where there are no links, files are found by the names that lead to them, and no directory is entered again. -/
theorem filesIn_eq (h : d.TreeBelow place) (hplace : d.get? place = some .directory) (fuel : Nat) (above : List Place)
    (p : Path) : d.filesIn skipped fuel above p place = (d.namesBelow skipped fuel place).map p.below := by
  induction fuel generalizing place above p with
  | zero => rfl
  | succ fuel ih =>
    rw [filesIn, namesBelow, List.map_flatMap]
    refine List.flatMap_congr fun name hname => ?_
    obtain ⟨entry, hentry⟩ := Option.isSome_iff_exists.mp (isSome_of_mem_children hname)
    have hlink := (h.of_get? hentry).2
    simp only [h.walk hplace hentry, hentry]
    cases entry with
    | link target => cases hlink
    | file content executable => rfl
    | directory =>
      simp only [Bool.false_and, Bool.or_false]
      split
      · rfl
      · rw [ih (h.down name) hentry, List.map_map]
        rfl

/-- Names lead to a file below a place if they are not too many and the directories on the way are not skipped. -/
theorem mem_namesBelow (hd : d.WellFormed) {fuel : Nat} : names ∈ d.namesBelow skipped fuel place ↔
    names ≠ [] ∧ names.length ≤ fuel ∧ (∀ name ∈ names.dropLast, skipped name = false) ∧
      d.fileAt (place ++ names) = true := by
  induction fuel generalizing place names with
  | zero => cases names <;> simp [namesBelow]
  | succ fuel ih =>
    rw [namesBelow, List.mem_flatMap]
    constructor
    · rintro ⟨name, -, hnames⟩
      split at hnames
      · rename_i content executable hentry
        obtain rfl := List.mem_singleton.mp hnames
        simp [fileAt, hentry, Entry.isFile]
      · rename_i hentry
        split at hnames
        · cases hnames
        · rename_i hskipped
          obtain ⟨rest, hrest, rfl⟩ := List.mem_map.mp hnames
          obtain ⟨hne, hlength, habove, hfile⟩ := ih.mp hrest
          rw [List.append_assoc, List.singleton_append] at hfile
          refine ⟨by simp, Nat.succ_le_succ hlength, ?_, hfile⟩
          rw [List.dropLast_cons_of_ne_nil hne]
          exact List.forall_mem_cons.mpr ⟨by simpa using hskipped, habove⟩
      · cases hnames
    · rintro ⟨hne, hlength, habove, hfile⟩
      cases names with
      | nil => exact absurd rfl hne
      | cons name rest =>
        rw [List.append_cons] at hfile
        obtain ⟨content, executable, hentry⟩ := exists_of_fileAt hfile
        by_cases hrest : rest = []
        · -- the file is in the directory itself
          subst hrest
          rw [List.append_nil] at hentry
          exact ⟨name, mem_children.mpr ⟨_, mem_entries_of_get? (by simp) hentry⟩, by simp [hentry]⟩
        · have hdirectory : d.get? (place ++ [name]) = some .directory :=
            hd.directory_above hrest (Option.isSome_of_eq_some hentry)
          rw [List.dropLast_cons_of_ne_nil hrest] at habove
          obtain ⟨hskipped, habove⟩ := List.forall_mem_cons.mp habove
          refine ⟨name, mem_children.mpr ⟨_, mem_entries_of_get? (by simp) hdirectory⟩, ?_⟩
          simp only [hdirectory, hskipped, Bool.false_eq_true, if_false]
          exact List.mem_map.mpr ⟨rest, ih.mpr ⟨hrest, Nat.le_of_succ_le_succ hlength, habove, hfile⟩, rfl⟩

/-- No two of the names that are found are the same. -/
theorem nodup_namesBelow (h : (d.entries.map Prod.fst).Nodup) (fuel : Nat) (place : Place) :
    (d.namesBelow skipped fuel place).Nodup := by
  induction fuel generalizing place with
  | zero => exact .nil
  | succ fuel ih =>
    -- those that are found through one child start with its name
    have hfirst : ∀ {name : String} {names : List String},
        names ∈ (match d.get? (place ++ [name]) with
          | some (.file _ _) => [[name]]
          | some .directory =>
            if skipped name then [] else (d.namesBelow skipped fuel (place ++ [name])).map (name :: ·)
          | _ => []) → names.head? = some name := by
      intro name names hnames
      split at hnames
      · rw [List.mem_singleton.mp hnames]
        rfl
      · split at hnames
        · cases hnames
        · obtain ⟨rest, -, rfl⟩ := List.mem_map.mp hnames
          rfl
      · cases hnames
    rw [namesBelow, List.nodup_flatMap]
    refine ⟨fun name _ => ?_, (nodup_children h place).imp fun hne names hnames hnames' => ?_⟩
    · split
      · exact List.nodup_singleton _
      · split
        · exact .nil
        · exact (ih _).map fun _ _ hcons => (List.cons.inj hcons).2
      · exact .nil
    · exact hne (Option.some.inj ((hfirst hnames).symm.trans (hfirst hnames')))

/-! ## Files below a path -/

/-- No place is deeper than a disk has entries: those above it are entries, too. -/
theorem WellFormed.length_le (h : d.WellFormed) (hx : (d.get? x).isSome = true) : x.length ≤ d.entries.length := by
  have hinits : ((List.range x.length).map fun n => x.take (n + 1)).Nodup := by
    refine List.nodup_range.map_on fun n hn m hm hnm => ?_
    have hlength := congrArg List.length hnm
    rw [List.mem_range] at hn hm
    simp only [List.length_take] at hlength
    omega
  have hsubset : ((List.range x.length).map fun n => x.take (n + 1)) ⊆ d.entries.map Prod.fst := by
    intro y hy
    obtain ⟨n, hn, rfl⟩ := List.mem_map.mp hy
    have hsome : (d.get? (x.take (n + 1))).isSome = true := by
      by_cases hdrop : x.drop (n + 1) = []
      · rwa [List.take_of_length_le (List.drop_eq_nil_iff.mp hdrop)]
      · rw [h.directory_above hdrop (by rwa [List.take_append_drop])]
        rfl
    have hne : x.take (n + 1) ≠ [] := by
      have hpos := List.mem_range.mp hn
      intro hnil
      have hlength := congrArg List.length hnil
      simp only [List.length_take, List.length_nil] at hlength
      omega
    obtain ⟨entry, hentry⟩ := mem_entries_of_isSome hne hsome
    exact List.mem_map.mpr ⟨_, hentry, rfl⟩
  simpa using (List.subperm_of_subset hinits hsubset).length_le

section Below

variable (h : d.TreeBelow place) (hp : d.locate p = .ok place) (hplace : d.get? place = some .directory)
include h hp hplace

theorem filesBelow_eq (skipped : String → Bool) : d.filesBelow skipped p =
    (d.namesBelow skipped ((d.entries.length + 1) * (d.entries.length + 1)) place).map p.below := by
  simp only [filesBelow, hp, hplace]
  exact filesIn_eq h hplace _ _ p

/-- The files below a directory are all those that are in no directory to be skipped. -/
theorem mem_filesBelow {q : Path} : q ∈ d.filesBelow skipped p ↔ ∃ names, q = p.below names ∧
    d.fileAt (place ++ names) = true ∧ ∀ name ∈ names.dropLast, skipped name = false := by
  rw [filesBelow_eq h hp hplace, List.mem_map]
  simp only [mem_namesBelow h.wellFormed]
  constructor
  · rintro ⟨names, ⟨-, -, habove, hfile⟩, rfl⟩
    exact ⟨names, rfl, hfile, habove⟩
  · rintro ⟨names, rfl, hfile, habove⟩
    obtain ⟨content, executable, hentry⟩ := exists_of_fileAt hfile
    have hne : names ≠ [] := by
      rintro rfl
      rw [List.append_nil, hplace] at hentry
      cases hentry
    have hlength := h.wellFormed.length_le (x := place ++ names) (by simp [hentry])
    rw [List.length_append] at hlength
    have hfuel : d.entries.length + 1 ≤ (d.entries.length + 1) * (d.entries.length + 1) := Nat.le_mul_self _
    exact ⟨names, ⟨hne, by omega, habove, hfile⟩, rfl⟩

/-- No two files below a directory have the same components. -/
theorem pairwise_filesBelow (skipped : String → Bool) :
    (d.filesBelow skipped p).Pairwise fun q r => q.components ≠ r.components := by
  rw [filesBelow_eq h hp hplace, List.pairwise_map]
  refine (nodup_namesBelow h.nodup _ place).imp_of_mem fun {names names'} hnames hnames' hne hsame => ?_
  have hplain : ∀ {fuel : Nat} {names : List String}, names ∈ d.namesBelow skipped fuel place →
      (p.below names).components = p.components ++ names.map .normal := by
    intro fuel names hnames
    obtain ⟨-, -, -, hfile⟩ := (mem_namesBelow h.wellFormed).mp hnames
    obtain ⟨content, executable, hentry⟩ := exists_of_fileAt hfile
    exact p.components_below fun name hname => ((h.of_get? hentry).1 name hname).1
  rw [hplain hnames, hplain hnames', List.append_cancel_left_eq] at hsame
  exact hne (List.map_injective_iff.mpr (fun _ _ => Component.normal.inj) hsame)

end Below

end Disk

end CellGraph
