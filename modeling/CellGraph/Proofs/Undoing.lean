import CellGraph.Proofs.Registration
import CellGraph.Proofs.Removal

/-!
# Undoing a build

A compiler that reports what it writes leaves files behind a build, and all else as it was (`Builder.writes_of_build`).
When they are removed again, what was on the disk before stays unless a compiled file names it. So a build is undone
just if its compiled files were all new (`Builder.undone_iff_of_build`): one that a compiler has overwritten is gone
afterwards, since nothing tells it from the others (`Overwritten.not_undone`).
-/

namespace CellGraph

namespace Disk

variable {d d' d'' : Disk} {files more : List Path} {x : Place} {p : Path}

/-- Whether all that happened to a disk is that files have been written, some perhaps again, and directories made for
them: the paths lead to the files. -/
structure Writes (files : List Path) (d d' : Disk) : Prop where
  wellFormed : d'.WellFormed
  keeps : d.Keeps d'
  written : ∀ p ∈ files, d'.isFile p = true
  changed : ∀ x, d'.get? x = d.get? x ∨ d.get? x = none ∧ d'.get? x = some .directory ∨
    d'.fileAt x = true ∧ ∃ p ∈ files, d'.locate p = .ok x

theorem Writes.refl (hd : d.WellFormed) : Writes [] d d where
  wellFormed := hd
  keeps := .refl d
  written _ hp := nomatch hp
  changed _ := Or.inl rfl

/-- Files that are there can be counted among the written ones. -/
theorem Writes.mono (h : Writes files d d') (hsubset : files ⊆ more)
    (hmore : ∀ p ∈ more, p ∈ files ∨ d'.isFile p = true) : Writes more d d' where
  wellFormed := h.wellFormed
  keeps := h.keeps
  written p hp := (hmore p hp).elim (h.written p) id
  changed x := by
    rcases h.changed x with hsame | hnew | ⟨hfile, p, hp, hx⟩
    · exact Or.inl hsame
    · exact Or.inr (Or.inl hnew)
    · exact Or.inr (Or.inr ⟨hfile, p, hsubset hp, hx⟩)

/-- A file stays one when files are written. -/
theorem Writes.fileAt (h : Writes files d d') (hx : d.fileAt x = true) : d'.fileAt x = true := by
  rcases h.changed x with hsame | ⟨hnone, -⟩ | ⟨hfile, -⟩
  · rwa [Disk.fileAt, hsame]
  · rw [Disk.fileAt, hnone] at hx
    cases hx
  · exact hfile

theorem Writes.locate (h : Writes files d d') (hp : d.locate p = .ok x) : d'.locate p = .ok x :=
  locate_of_keeps h.keeps h.fileAt hp

theorem Writes.trans (h : Writes files d d') (h' : Writes more d' d'') : Writes (files ++ more) d d'' where
  wellFormed := h'.wellFormed
  keeps := h.keeps.trans h'.keeps
  written p hp := by
    rcases List.mem_append.mp hp with hp | hp
    · obtain ⟨x, hx, hfile⟩ := isFile_iff.mp (h.written p hp)
      exact isFile_iff.mpr ⟨x, h'.locate hx, h'.fileAt hfile⟩
    · exact h'.written p hp
  changed x := by
    rcases h'.changed x with hsame' | ⟨hnone', hdirectory'⟩ | ⟨hfile', p, hp, hx⟩
    · rw [hsame', Disk.fileAt, hsame']
      rcases h.changed x with hsame | hnew | ⟨hfile, p, hp, hx⟩
      · exact Or.inl hsame
      · exact Or.inr (Or.inl hnew)
      · exact Or.inr (Or.inr ⟨hfile, p, List.mem_append_left _ hp, h'.locate hx⟩)
    · rcases h.changed x with hsame | ⟨-, hdirectory⟩ | ⟨hfile, -⟩
      · exact Or.inr (Or.inl ⟨hsame ▸ hnone', hdirectory'⟩)
      · rw [hnone'] at hdirectory
        cases hdirectory
      · rw [Disk.fileAt, hnone'] at hfile
        cases hfile
    · exact Or.inr (Or.inr ⟨hfile', p, List.mem_append_right _ hp, hx⟩)

/-- Writing one file, where there is none or one already. -/
theorem Writes.put (hd : d.WellFormed) {content : Text.Bytes} {executable : Bool} (hx : x ≠ [])
    (hparent : d.get? x.dropLast = some .directory) (hfree : (d.get? x).all Entry.isFile = true)
    (hp : (d.put x (.file content executable)).locate p = .ok x) :
    d.Writes [p] (d.put x (.file content executable)) := by
  have hfile : (d.put x (.file content executable)).fileAt x = true := by
    rw [Disk.fileAt, get?_put d _ hx]
    rfl
  have hstays : ∀ y entry, d.get? y = some entry → entry.isFile = false →
      (d.put x (.file content executable)).get? y = some entry := by
    intro y entry hentry hnot
    rw [get?_put_of_ne, hentry]
    rintro rfl
    rw [hentry, Option.all_some, hnot] at hfree
    cases hfree
  refine ⟨⟨fun y name hy => ?_, hstays _ _ hd.workingDirectory rfl⟩, ⟨rfl, hstays⟩, ?_, fun y => ?_⟩
  · refine hstays _ _ ?_ rfl
    by_cases hname : y ++ [name] = x
    · rwa [← hname, List.dropLast_concat] at hparent
    · rw [get?_put_of_ne d _ hname] at hy
      exact hd.above y name hy
  · intro q hq
    rw [List.mem_singleton.mp hq]
    exact isFile_iff.mpr ⟨x, hp, hfile⟩
  · by_cases hy : y = x
    · subst hy
      exact Or.inr (Or.inr ⟨hfile, p, List.mem_singleton_self p, hp⟩)
    · exact Or.inl (get?_put_of_ne d _ hy)

/-- A path that names a file in the root directory leads to it. -/
theorem locate_of_root {segment : List Char} (hpath : checkPath p = .ok ())
    (hsplit : splitSlashes p.chars = [[], segment]) (hslash : p.chars.head? = some '/')
    (hsegment : ¬ (segment = [] ∨ segment = ['.'])) (hup : segment ≠ ['.', '.'])
    (hlength : ¬ Text.byteLength segment > maxName) (h : d.fileAt [.ofList segment] = true) :
    d.locate p = .ok [.ofList segment] := by
  obtain ⟨content, executable, hentry⟩ := exists_of_fileAt h
  rw [locate_eq_ok_iff, hsplit, origin, if_pos hslash]
  exact ⟨hpath, .stay d.get?_nil (Or.inl rfl)
    (.down d.get?_nil hsegment hup hlength hentry (fun _ => Entry.noConfusion) .arrived)⟩

/-! ## Removing what was written -/

theorem Writes.isLink_iff (h : Writes files d d') : d'.IsLink x ↔ d.IsLink x := by
  refine ⟨fun ⟨target, hlink⟩ => ?_, fun ⟨target, hlink⟩ => ⟨target, h.keeps.entry _ _ hlink rfl⟩⟩
  rcases h.changed x with hsame | ⟨-, hdirectory⟩ | ⟨hfile, -⟩
  · exact ⟨target, hsame ▸ hlink⟩
  · rw [hlink] at hdirectory
    cases hdirectory
  · rw [Disk.fileAt, hlink] at hfile
    cases hfile

theorem Writes.holds (h : Writes files d d') (hx : d.Holds x) : d'.Holds x := by
  rcases h.changed x with hsame | ⟨hnone, -⟩ | ⟨hfile, -⟩
  · rwa [Holds, hsame]
  · have hsome := hx.isSome
    rw [hnone] at hsome
    cases hsome
  · exact holds_of_fileAt hfile

/-- What is new on a disk after files were written is one of them. -/
theorem Writes.exists_of_new (h : Writes files d d') (hx : d'.Holds x) (hnew : ¬ d.Holds x) :
    d'.fileAt x = true ∧ ∃ p ∈ files, d'.locate p = .ok x := by
  rcases h.changed x with hsame | ⟨-, hdirectory⟩ | hwritten
  · rw [Holds, hsame] at hx
    exact absurd hx hnew
  · exact absurd hdirectory hx.get?_ne
  · exact hwritten

/-- If the written files name no links, nothing new is left when they are removed. -/
theorem Writes.holds_of_without (h : Writes files d d') (hlinks : ∀ y, d'.Names files y → ¬ d'.IsLink y)
    (hx : (d'.without files).Holds x) : d.Holds x := by
  obtain ⟨hx, hkept⟩ := (holds_without_iff h.wellFormed hlinks).mp hx
  by_contra hnew
  obtain ⟨hfile, p, hp, hlocate⟩ := h.exists_of_new hx hnew
  obtain ⟨y, hnamed, rfl | hlink⟩ := exists_entryPlace_of_locate h.wellFormed hfile hlocate
  · exact hkept ⟨p, hp, hnamed⟩
  · exact hlinks y ⟨p, hp, hnamed⟩ hlink

/-- Removing the written files brings back what a disk held just if it held none of what they name. -/
theorem Writes.undone_iff (h : Writes files d d') :
    (∀ x, (d'.without files).Holds x ↔ d.Holds x) ↔ ∀ x, d'.Names files x → ¬ d.Holds x := by
  constructor
  · intro hundone x hnamed hx
    obtain ⟨y, hy, -, hgone⟩ := exists_removed_of_named h.wellFormed
      (fun y _ hlink => (h.isLink_iff.mp hlink).holds) hnamed (h.holds hx) hx
    exact hgone ((hundone y).mpr hy)
  · intro hnew x
    have hlinks : ∀ y, d'.Names files y → ¬ d'.IsLink y := fun y hnamed hlink =>
      hnew y hnamed (h.isLink_iff.mp hlink).holds
    exact ⟨h.holds_of_without hlinks, fun hx => holds_without h.wellFormed (h.holds hx) fun hnamed => hnew x hnamed hx⟩

end Disk

/-! ## Compilers that report what they write -/

/-- Whether a compiler writes nothing when it lists sources, and reports just the files that it wrote otherwise. -/
structure Compiler.Reports (compile : Compiler Disk) : Prop where
  list : ∀ typed d, (compile (.list typed) d).2 = d
  emit : ∀ sources d answer d', d.WellFormed → compile (.emit sources) d = (answer, d') → answer.success = true →
    d.Writes answer.files d'

/-- A module that has been compiled has been written with others, and they are what was compiled for it. -/
theorem Compilation.writes {roots : Roots} {compile : Compiler Disk} {missing : Resource} {typed : Path} {d d' : Disk}
    {m : CompiledModule} (h : Compilation Disk.fileSystem roots compile missing typed d (.ok m) d')
    (hcompile : compile.Reports) (hd : d.WellFormed) : d.Writes m.emitted d' := by
  cases h with
  | @compiled listed emitted d₁ _ hlist _ hemit hemitted _ hcollect =>
    have hlisted := hcompile.list typed d
    rw [hlist] at hlisted
    obtain rfl : d₁ = d := hlisted
    obtain ⟨hread, hsubset, hown⟩ := of_collectEmitted_ok hcollect
    refine (hcompile.emit _ _ _ _ hd hemit hemitted).mono hsubset fun f hf => (hown f hf).imp id ?_
    rintro rfl
    exact Disk.isFile_of_readText hread

namespace Builder

variable {b : Builder Disk} {root : Root} {fuel : Nat} {s s' : BuildState Disk} {g : Graph}

/-- A build that comes to a graph has written the files that were compiled for it, and nothing else. -/
theorem writes_of_build (hfiles : b.files = Disk.fileSystem)
    (hcompiler : ∀ compile, b.compiler = some compile → compile.Reports) (hd : s.disk.WellFormed)
    (h : b.build fuel root s = some (.ok g, s')) : s.disk.Writes g.compiledFiles s'.disk := by
  obtain ⟨f, hwrites, -, hcompiled, rfl⟩ := exists_footprint (b := b) (s := s)
    (P := fun f => s.disk.Writes f.compiledFiles f.disk) (fun {r f f'} hwrites heffect => by
      cases heffect with
      | nothing => exact hwrites
      | recovered hrecover hcompile =>
        have hfiles : (b.buildOf root s.builds).files = Disk.fileSystem := hfiles
        rw [hfiles] at hcompile
        exact hwrites.trans (hcompile.writes (hcompiler _ hrecover.compiler) hwrites.wellFormed)) (.refl hd) h
  rw [hcompiled]
  exact hwrites

/-- What is left on a disk when the files of a build are removed that nothing was registered for before. What was there
stays unless a compiled file names it; nothing new stays unless a compiled file names a link; and the disk holds just
what it held before the build if and only if no compiled file names what it held. -/
theorem undone_iff_of_build (hfiles : b.files = Disk.fileSystem) (hb : b.registers = true)
    (hcompiler : ∀ compile, b.compiler = some compile → compile.Reports) (hd : s.disk.WellFormed)
    (hfresh : s.registry.registered (root.buildId s.builds) = []) (h : b.build fuel root s = some (.ok g, s'))
    {count : Nat} {registry : Registry} {after : Disk}
    (hcleanup : s'.registry.cleanup b.files g.buildId s'.disk = (count, registry, after)) :
    (∀ x, s.disk.Holds x → ¬ s'.disk.Names g.compiledFiles x → after.Holds x) ∧
    ((∀ x, s'.disk.Names g.compiledFiles x → ¬ s'.disk.IsLink x) → ∀ x, after.Holds x → s.disk.Holds x) ∧
    ((∀ x, after.Holds x ↔ s.disk.Holds x) ↔ ∀ x, s'.disk.Names g.compiledFiles x → ¬ s.disk.Holds x) := by
  have hwrites := writes_of_build hfiles hcompiler hd h
  have hafter : after = s'.disk.without g.compiledFiles := by
    rw [← (registered_of_build hb hfresh h).2, Disk.without, ← hfiles]
    exact (congrArg (·.2.2) hcleanup).symm
  subst hafter
  exact ⟨fun x hx hkept => Disk.holds_without hwrites.wellFormed (hwrites.holds hx) hkept,
    fun hlinks x hx => hwrites.holds_of_without hlinks hx, hwrites.undone_iff⟩

end Builder

/-! ## Modules that are overwritten -/

namespace Overwritten

/-- A module that can be compiled, and one that is there already. -/
def disk : Disk := .ofTexts [(["a.ts"], "import './b'"), (["b.js"], "old")]

/-- Whether a file can be written in the root directory. -/
def canWrite (d : Disk) (name : String) : Bool := (d.get? [name]).all Entry.isFile

/-- Writes two modules. -/
def emit (d : Disk) : CompilerAnswer × Disk :=
  if canWrite d "a.js" && canWrite d "b.js" then
    (⟨true, "", [⟨"/a.js"⟩, ⟨"/b.js"⟩]⟩, (d.put ["a.js"] (.file [] false)).put ["b.js"] (.file [] false))
  else (.failed "", d)

/-- A compiler that writes the same modules whatever it is asked for. -/
def compiler : Compiler Disk
  | .list typed, d => (⟨true, "", [typed]⟩, d)
  | .emit _, d => emit d

theorem writes_put {d : Disk} (hd : d.WellFormed) {p : Path} (segment : List Char)
    (hp : ∀ {d : Disk}, d.fileAt [.ofList segment] = true → d.locate p = .ok [.ofList segment])
    (hfree : canWrite d (.ofList segment) = true) : d.Writes [p] (d.put [.ofList segment] (.file [] false)) := by
  refine .put hd (List.cons_ne_nil _ _) d.get?_nil hfree (hp ?_)
  rw [Disk.fileAt, Disk.get?_put d _ (List.cons_ne_nil _ _)]
  rfl

theorem reports_compiler : compiler.Reports where
  list _ _ := rfl
  emit _ d answer d' hd hemit hsuccess := by
    change emit d = _ at hemit
    unfold emit at hemit
    split at hemit
    · rename_i hfree
      rw [Bool.and_eq_true] at hfree
      cases hemit
      have hfirst : d.Writes [⟨"/a.js"⟩] (d.put ["a.js"] (.file [] false)) :=
        writes_put hd ['a', '.', 'j', 's']
          (Disk.locate_of_root rfl rfl rfl (by decide) (by decide) (by decide)) hfree.1
      have hsecond : (d.put ["a.js"] (.file [] false)).Writes [⟨"/b.js"⟩]
          ((d.put ["a.js"] (.file [] false)).put ["b.js"] (.file [] false)) :=
        writes_put hfirst.wellFormed ['b', '.', 'j', 's']
          (Disk.locate_of_root rfl rfl rfl (by decide) (by decide) (by decide)) (by
            rw [canWrite, Disk.get?_put_of_ne d _ (by decide)]
            exact hfree.2)
      exact hfirst.trans hsecond
    · cases hemit
      cases hsuccess

def builder : Builder Disk := { Builder.onDisk with compiler := some compiler, registers := true }

def root : Root := .script "import './a.js'" ⟨"/"⟩

/-- The files that were compiled for a build and the disk after, if it came to a graph. -/
def left? (o : Outcome Disk Graph) : Option (List Path × Disk) :=
  o.bind fun x =>
    match x.1 with
    | .ok g => some (g.compiledFiles, x.2.disk)
    | .error _ => none

/-- The module that was there is not there any more. -/
theorem not_undone : ∃ g s' count registry after,
    builder.build 2 root ⟨disk, .empty, 0⟩ = some (.ok g, s') ∧
    s'.registry.cleanup builder.files g.buildId s'.disk = (count, registry, after) ∧
    ¬ ∀ x, after.Holds x ↔ disk.Holds x := by
  have hleft : left? (builder.build 2 root ⟨disk, .empty, 0⟩) = some ([⟨"/a.js"⟩, ⟨"/b.js"⟩], (emit disk).2) := by
    decide +kernel
  obtain ⟨⟨result, s'⟩, hbuild, hleft⟩ := Option.bind_eq_some_iff.mp hleft
  cases result with
  | error e => cases hleft
  | ok g =>
    simp only [Option.some.injEq, Prod.mk.injEq] at hleft
    obtain ⟨hcompiled, hdisk⟩ := hleft
    refine ⟨g, s', _, _, _, hbuild, rfl, fun hundone => ?_⟩
    have hcompiler : ∀ compile, builder.compiler = some compile → compile.Reports := fun compile hcompile =>
      Option.some.inj hcompile ▸ reports_compiler
    obtain ⟨-, -, hiff⟩ := Builder.undone_iff_of_build rfl rfl hcompiler (by decide) rfl hbuild rfl
    have hnamed : s'.disk.entryPlace ⟨"/b.js"⟩ = .ok ["b.js"] := by
      rw [hdisk]
      rfl
    have hcompiledFile : (⟨"/b.js"⟩ : Path) ∈ g.compiledFiles := by simp [hcompiled]
    exact hiff.mp hundone _ ⟨_, hcompiledFile, hnamed⟩ ⟨_, rfl, Entry.noConfusion⟩

end Overwritten

end CellGraph
