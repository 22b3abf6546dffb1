import CellGraph.Proofs.Places

/-!
# Removing files

Removing a path takes one entry away, the file or link that it names, and leaves everything else (`Disk.get?_drop_iff`).
When paths are removed in turn, the entries that are gone are as many as were found to remove (`Disk.exists_gone`). Each
path names on the disk as it has become no other entry than at the start, so what none of them named at the start stays
(`Disk.holds_without`). Unless links are removed on the way, what some of them named is gone (`Disk.holds_without_iff`).
-/

namespace CellGraph.Disk

variable {d d' : Disk} {x y : Place} {p : Path} {ps : List Path}

/-- Whether a disk holds a file or a link at a place. -/
def Holds (d : Disk) (x : Place) : Prop := ∃ entry, d.get? x = some entry ∧ entry ≠ .directory

/-- Whether there is a link at a place. -/
def IsLink (d : Disk) (x : Place) : Prop := ∃ target, d.get? x = some (.link target)

theorem IsLink.holds (h : d.IsLink x) : d.Holds x := by
  obtain ⟨target, hlink⟩ := h
  exact ⟨_, hlink, Entry.noConfusion⟩

theorem holds_of_fileAt (h : d.fileAt x = true) : d.Holds x := by
  obtain ⟨content, executable, hentry⟩ := exists_of_fileAt h
  exact ⟨_, hentry, Entry.noConfusion⟩

theorem Holds.get?_ne (h : d.Holds x) : d.get? x ≠ some .directory := by
  obtain ⟨entry, hentry, hne⟩ := h
  intro hdirectory
  exact hne (Option.some.inj (hentry.symm.trans hdirectory))

theorem Holds.isSome (h : d.Holds x) : (d.get? x).isSome = true := by
  obtain ⟨entry, hentry, -⟩ := h
  rw [hentry]
  rfl

theorem Holds.ne_nil (h : d.Holds x) : x ≠ [] := by
  rintro rfl
  exact h.get?_ne d.get?_nil

/-- Nothing is below a file or a link. -/
theorem WellFormed.eq_of_below (hd : d.WellFormed) (hx : d.Holds x) (hy : (d.get? y).isSome = true) (hxy : x <+: y) :
    y = x := by
  obtain ⟨rest, rfl⟩ := hxy
  by_cases hrest : rest = []
  · rw [hrest, List.append_nil]
  · exact absurd (hd.directory_above hrest hy) hx.get?_ne

/-! ## One path -/

/-- A disk after a file or link has been removed, if a path names one. -/
def drop (d : Disk) (p : Path) : Disk := (d.remove p).getD d

theorem remove_of_holds (hp : d.entryPlace p = .ok x) (hx : d.Holds x) : d.remove p = some (d.erase x) := by
  simp only [remove, hp, if_neg hx.get?_ne]

theorem remove_of_not_holds (h : ∀ x, d.entryPlace p = .ok x → ¬ d.Holds x) : d.remove p = none := by
  unfold remove
  split
  · rfl
  · rename_i x hp
    obtain ⟨entry, hentry⟩ := Option.isSome_iff_exists.mp (isSome_of_entryPlace hp)
    have hdirectory : entry = .directory := by
      by_contra hne
      exact h x hp ⟨entry, hentry, hne⟩
    rw [hentry, hdirectory, if_pos rfl]

theorem drop_of_holds (hp : d.entryPlace p = .ok x) (hx : d.Holds x) : d.drop p = d.erase x := by
  rw [drop, remove_of_holds hp hx, Option.getD_some]

theorem drop_of_not_holds (h : ∀ x, d.entryPlace p = .ok x → ¬ d.Holds x) : d.drop p = d := by
  rw [drop, remove_of_not_holds h, Option.getD_none]

@[simp] theorem workingDirectory_drop (d : Disk) (p : Path) : (d.drop p).workingDirectory = d.workingDirectory := by
  unfold drop remove
  split
  · rfl
  · split <;> rfl

/-- What is on a disk after a removal: what was there before, but for the file or link that the path names. -/
theorem get?_drop_iff (hd : d.WellFormed) {entry : Entry} : (d.drop p).get? x = some entry ↔
    d.get? x = some entry ∧ ¬ (d.entryPlace p = .ok x ∧ entry ≠ .directory) := by
  by_cases hp : ∃ y, d.entryPlace p = .ok y ∧ d.Holds y
  · obtain ⟨y, hp, hy⟩ := hp
    rw [drop_of_holds hp hy]
    by_cases hyx : y <+: x
    · have hx : x ≠ [] := by
        rintro rfl
        exact hy.ne_nil (List.prefix_nil.mp hyx)
      rw [get?_erase_of_below d hx hyx]
      refine Iff.intro (fun h => nomatch h) fun ⟨hentry, hkept⟩ => ?_
      -- what is there and below the removed entry is that entry itself
      obtain rfl := hd.eq_of_below hy (by rw [hentry]; rfl) hyx
      refine absurd ⟨hp, ?_⟩ hkept
      rintro rfl
      exact hy.get?_ne hentry
    · rw [get?_erase_of_not_below d hyx]
      refine ⟨fun h => ⟨h, fun hx => hyx ?_⟩, And.left⟩
      rw [Except.ok.inj (hp.symm.trans hx.1)]
  · rw [drop_of_not_holds fun y hy hholds => hp ⟨y, hy, hholds⟩]
    exact ⟨fun h => ⟨h, fun hx => hp ⟨x, hx.1, entry, h, hx.2⟩⟩, And.left⟩

/-- Only the entry that the path names is taken away. -/
theorem get?_drop_of_ne (hd : d.WellFormed) (hp : d.entryPlace p = .ok y) (hx : x ≠ y) :
    (d.drop p).get? x = d.get? x := by
  refine Option.ext fun entry => ?_
  rw [get?_drop_iff hd, hp, Except.ok.injEq]
  exact ⟨And.left, fun h => ⟨h, fun hyx => hx hyx.1.symm⟩⟩

theorem holds_drop_iff (hd : d.WellFormed) : (d.drop p).Holds x ↔ d.Holds x ∧ d.entryPlace p ≠ .ok x := by
  constructor
  · rintro ⟨entry, hentry, hne⟩
    obtain ⟨hentry, hkept⟩ := (get?_drop_iff hd).mp hentry
    exact ⟨⟨entry, hentry, hne⟩, fun hp => hkept ⟨hp, hne⟩⟩
  · rintro ⟨⟨entry, hentry, hne⟩, hp⟩
    exact ⟨entry, (get?_drop_iff hd).mpr ⟨hentry, fun h => hp h.1⟩, hne⟩

/-- Directories stay. -/
theorem get?_drop_of_directory (hd : d.WellFormed) (hx : d.get? x = some .directory) :
    (d.drop p).get? x = some .directory :=
  (get?_drop_iff hd).mpr ⟨hx, fun h => h.2 rfl⟩

theorem WellFormed.drop (hd : d.WellFormed) (p : Path) : (d.drop p).WellFormed where
  above place name h := by
    obtain ⟨entry, hentry⟩ := Option.isSome_iff_exists.mp h
    have hbefore := ((get?_drop_iff hd).mp hentry).1
    exact get?_drop_of_directory hd (hd.above place name (by rw [hbefore]; rfl))
  workingDirectory := by
    rw [workingDirectory_drop]
    exact get?_drop_of_directory hd hd.workingDirectory

/-- All that is there after a removal was there before. -/
theorem drop_keeps (hd : d.WellFormed) (p : Path) : (d.drop p).Keeps d where
  workingDirectory := (d.workingDirectory_drop p).symm
  entry _ _ hentry _ := ((get?_drop_iff hd).mp hentry).1

/-- Where a path names no link, its removal keeps directories and links. -/
theorem keeps_drop (hd : d.WellFormed) (hp : ∀ x, d.entryPlace p = .ok x → ¬ d.IsLink x) : d.Keeps (d.drop p) where
  workingDirectory := d.workingDirectory_drop p
  entry place entry hentry hfile := by
    refine (get?_drop_iff hd).mpr ⟨hentry, fun ⟨hplace, hne⟩ => ?_⟩
    cases entry with
    | file => cases hfile
    | directory => exact hne rfl
    | link target => exact hp place hplace ⟨target, hentry⟩

/-- What a path names after a removal it has named before. -/
theorem entryPlace_of_drop (hd : d.WellFormed) {q : Path} (h : (d.drop p).entryPlace q = .ok x) :
    d.entryPlace q = .ok x := by
  obtain ⟨entry, hentry⟩ := Option.isSome_iff_exists.mp (isSome_of_entryPlace h)
  exact entryPlace_of_keeps (drop_keeps hd p) (by rw [((get?_drop_iff hd).mp hentry).1]; rfl) h

/-! ## Paths in turn -/

/-- Whether one of some paths names an entry. -/
def Names (d : Disk) (ps : List Path) (x : Place) : Prop := ∃ p ∈ ps, d.entryPlace p = .ok x

theorem names_cons : d.Names (p :: ps) x ↔ d.entryPlace p = .ok x ∨ d.Names ps x := by
  simp [Names]

theorem Names.of_drop (hd : d.WellFormed) (h : (d.drop p).Names ps x) : d.Names ps x := by
  obtain ⟨q, hq, hx⟩ := h
  exact ⟨q, hq, entryPlace_of_drop hd hx⟩

/-- Where a path names no link, what is still there after its removal is named by the same paths. -/
theorem Names.drop (hd : d.WellFormed) (hp : ∀ x, d.entryPlace p = .ok x → ¬ d.IsLink x)
    (hx : ((d.drop p).get? x).isSome = true) (h : d.Names ps x) : (d.drop p).Names ps x := by
  obtain ⟨q, hq, hnamed⟩ := h
  exact ⟨q, hq, entryPlace_of_keeps (keeps_drop hd hp) hx hnamed⟩

/-- A disk after paths have been removed in turn. -/
def without (d : Disk) (ps : List Path) : Disk := (fileSystem.removeAll ps d).2

@[simp] theorem without_nil (d : Disk) : d.without [] = d := rfl

@[simp] theorem without_cons (d : Disk) (p : Path) (ps : List Path) : d.without (p :: ps) = (d.drop p).without ps := by
  simp only [without, FileSystem.removeAll, fileSystem, drop]
  cases d.remove p <;> rfl

/-- Removals bring about nothing. -/
theorem without_keeps (hd : d.WellFormed) (ps : List Path) : (d.without ps).Keeps d := by
  induction ps generalizing d with
  | nil => exact .refl d
  | cons p ps ih =>
    rw [without_cons]
    exact (ih (hd.drop p)).trans (drop_keeps hd p)

theorem holds_of_holds_without (hd : d.WellFormed) (h : (d.without ps).Holds x) : d.Holds x := by
  induction ps generalizing d with
  | nil => exact h
  | cons p ps ih => exact ((holds_drop_iff hd).mp (ih (hd.drop p) (without_cons d p ps ▸ h))).1

/-- What none of the paths names stays. -/
theorem holds_without (hd : d.WellFormed) (hx : d.Holds x) (hps : ¬ d.Names ps x) : (d.without ps).Holds x := by
  induction ps generalizing d with
  | nil => exact hx
  | cons p ps ih =>
    rw [names_cons, not_or] at hps
    rw [without_cons]
    exact ih (hd.drop p) ((holds_drop_iff hd).mpr ⟨hx, hps.1⟩) fun hnamed => hps.2 (hnamed.of_drop hd)

/-- As many files and links are gone when paths have been removed in turn as there were found to remove, and all else is
as it was. -/
theorem exists_gone (hd : d.WellFormed) (ps : List Path) : ∃ gone : List Place, gone.Nodup ∧
    gone.length = (fileSystem.removeAll ps d).1 ∧ (∀ x, x ∈ gone ↔ d.Holds x ∧ ¬ (d.without ps).Holds x) ∧
    ∀ x, x ∉ gone → (d.without ps).get? x = d.get? x := by
  induction ps generalizing d with
  | nil => exact ⟨[], List.nodup_nil, rfl, fun x => by simp, fun _ _ => rfl⟩
  | cons p ps ih =>
    obtain ⟨gone, hnodup, hlength, hgone, hstays⟩ := ih (hd.drop p)
    rw [without_cons]
    by_cases hp : ∃ x, d.entryPlace p = .ok x ∧ d.Holds x
    · obtain ⟨x, hpx, hx⟩ := hp
      have hnot : ¬ (d.drop p).Holds x := fun h => ((holds_drop_iff hd).mp h).2 hpx
      refine ⟨x :: gone, List.nodup_cons.mpr ⟨fun h => hnot ((hgone x).mp h).1, hnodup⟩, ?_, fun y => ?_,
        fun y hy => ?_⟩
      · have hcount : (fileSystem.removeAll (p :: ps) d).1 = (fileSystem.removeAll ps (d.drop p)).1 + 1 := by
          simp only [FileSystem.removeAll, fileSystem, drop_of_holds hpx hx, remove_of_holds hpx hx]
        rw [hcount, List.length_cons, hlength]
      · rw [List.mem_cons, hgone, holds_drop_iff hd, hpx]
        constructor
        · rintro (rfl | ⟨⟨hy, -⟩, hafter⟩)
          · exact ⟨hx, fun h => hnot (holds_of_holds_without (hd.drop p) h)⟩
          · exact ⟨hy, hafter⟩
        · rintro ⟨hy, hafter⟩
          by_cases hyx : y = x
          · exact Or.inl hyx
          · exact Or.inr ⟨⟨hy, fun h => hyx (Except.ok.inj h).symm⟩, hafter⟩
      · rw [List.mem_cons, not_or] at hy
        rw [hstays y hy.2, get?_drop_of_ne hd hpx hy.1]
    · have hnone : ∀ x, d.entryPlace p = .ok x → ¬ d.Holds x := fun x hpx hx => hp ⟨x, hpx, hx⟩
      rw [drop_of_not_holds hnone] at hlength hgone hstays ⊢
      refine ⟨gone, hnodup, ?_, hgone, hstays⟩
      simpa only [FileSystem.removeAll, fileSystem, remove_of_not_holds hnone] using hlength

/-- If paths name something of a kind that all links that they name are of, something of that kind is removed: before it
is, no link is. -/
theorem exists_removed_of_named {P : Place → Prop} (hd : d.WellFormed)
    (hlinks : ∀ y, d.Names ps y → d.IsLink y → P y) (hnamed : d.Names ps x) (hx : d.Holds x) (hPx : P x) :
    ∃ y, P y ∧ d.Holds y ∧ ¬ (d.without ps).Holds y := by
  induction ps generalizing d with
  | nil =>
    obtain ⟨p, hp, -⟩ := hnamed
    cases hp
  | cons p ps ih =>
    rw [without_cons]
    by_cases hp : ∃ y, d.entryPlace p = .ok y ∧ d.Holds y ∧ P y
    · obtain ⟨y, hpy, hy, hPy⟩ := hp
      refine ⟨y, hPy, hy, fun h => ?_⟩
      exact ((holds_drop_iff hd).mp (holds_of_holds_without (hd.drop p) h)).2 hpy
    · have hnolink : ∀ y, d.entryPlace p = .ok y → ¬ d.IsLink y := fun y hpy hlink =>
        hp ⟨y, hpy, hlink.holds, hlinks y (names_cons.mpr (Or.inl hpy)) hlink⟩
      have hne : d.entryPlace p ≠ .ok x := fun hpx => hp ⟨x, hpx, hx, hPx⟩
      have hstays : (d.drop p).Holds x := (holds_drop_iff hd).mpr ⟨hx, hne⟩
      have hrest := ((names_cons.mp hnamed).resolve_left hne).drop hd hnolink hstays.isSome
      obtain ⟨y, hPy, hy, hgone⟩ := ih (hd.drop p) (fun y hy ⟨target, hlink⟩ =>
        hlinks y (names_cons.mpr (Or.inr (hy.of_drop hd))) ⟨target, ((get?_drop_iff hd).mp hlink).1⟩) hrest hstays
      exact ⟨y, hPy, ((holds_drop_iff hd).mp hy).1, hgone⟩

section NoLinks

variable (hd : d.WellFormed) (hlinks : ∀ x, d.Names ps x → ¬ d.IsLink x)

include hd hlinks

/-- What is left when paths have been removed that name no links: all that none of them names. -/
theorem get?_without_iff {entry : Entry} : (d.without ps).get? x = some entry ↔
    d.get? x = some entry ∧ ¬ (d.Names ps x ∧ entry ≠ .directory) := by
  induction ps generalizing d with
  | nil => simp [Names]
  | cons p ps ih =>
    have hp : ∀ y, d.entryPlace p = .ok y → ¬ d.IsLink y := fun y hy => hlinks y (names_cons.mpr (Or.inl hy))
    have hrest : ∀ y, (d.drop p).Names ps y → ¬ (d.drop p).IsLink y := fun y hy ⟨target, hlink⟩ =>
      hlinks y (names_cons.mpr (Or.inr (hy.of_drop hd))) ⟨target, ((get?_drop_iff hd).mp hlink).1⟩
    rw [without_cons, ih (hd.drop p) hrest, get?_drop_iff hd, names_cons, and_assoc, or_and_right, not_or]
    refine and_congr_right fun hentry => and_congr_right fun hkept => not_congr (and_congr_left fun hne => ?_)
    refine ⟨fun h => h.of_drop hd, fun h => h.drop hd hp ?_⟩
    rw [(get?_drop_iff hd).mpr ⟨hentry, hkept⟩]
    rfl

theorem holds_without_iff : (d.without ps).Holds x ↔ d.Holds x ∧ ¬ d.Names ps x := by
  refine ⟨fun ⟨entry, hentry, hne⟩ => ?_, fun h => holds_without hd h.1 h.2⟩
  obtain ⟨hentry, hkept⟩ := (get?_without_iff hd hlinks).mp hentry
  exact ⟨⟨entry, hentry, hne⟩, fun hnamed => hkept ⟨hnamed, hne⟩⟩

theorem fileAt_without_iff : (d.without ps).fileAt x = true ↔ d.fileAt x = true ∧ ¬ d.Names ps x := by
  simp only [fileAt, Option.any_eq_true]
  constructor
  · rintro ⟨entry, hentry, hfile⟩
    obtain ⟨hentry, hkept⟩ := (get?_without_iff hd hlinks).mp hentry
    refine ⟨⟨entry, hentry, hfile⟩, fun hnamed => hkept ⟨hnamed, ?_⟩⟩
    rintro rfl
    cases hfile
  · rintro ⟨⟨entry, hentry, hfile⟩, hkept⟩
    exact ⟨entry, (get?_without_iff hd hlinks).mpr ⟨hentry, fun h => hkept h.1⟩, hfile⟩

theorem keeps_without : d.Keeps (d.without ps) where
  workingDirectory := (without_keeps hd ps).workingDirectory.symm
  entry place entry hentry hfile := by
    refine (get?_without_iff hd hlinks).mpr ⟨hentry, fun ⟨hnamed, hne⟩ => ?_⟩
    cases entry with
    | file => cases hfile
    | directory => exact hne rfl
    | link target => exact hlinks place hnamed ⟨target, hentry⟩

/-- A path leads to a file afterwards if it did before and none of the paths names the file. -/
theorem isFile_without_iff : (d.without ps).isFile p = true ↔
    ∃ x, d.locate p = .ok x ∧ d.fileAt x = true ∧ ¬ d.Names ps x := by
  rw [isFile_iff]
  constructor
  · rintro ⟨x, hx, hfile⟩
    have hbefore := (fileAt_without_iff hd hlinks).mp hfile
    exact ⟨x, locate_of_keeps (without_keeps hd ps) (fun _ => hbefore.1) hx, hbefore⟩
  · rintro ⟨x, hx, hbefore⟩
    have hfile := (fileAt_without_iff hd hlinks).mpr hbefore
    exact ⟨x, locate_of_keeps (keeps_without hd hlinks) (fun _ => hfile) hx, hfile⟩

end NoLinks

end CellGraph.Disk
