import CellGraph.Proofs.Session

/-!
# Histories of a registry

What builds and cleanups that share a registry have done to it, from the time when it was empty. A `History` lists the
events, the latest first: builds that came to a graph or failed, cleanups, and what else happened to the files and the
numbers of builds. An event changes what is registered under its own name only (`Happens.registered_of_ne`), and no name
is given twice (`History.nodup`). So the files of a build stay registered, in order, until they are cleaned up
(`History.registered_of_built`), and from then on nothing is (`History.registered_of_cleaned`). A cleanup says how many
files it has taken from the disk (`registered_of_history`).
-/

namespace CellGraph.Registry

variable {σ : Type}

/-- What happens to a registry or beside it. -/
inductive Event
  /-- A build under a name came to a graph or failed. -/
  | built (id : String) (result : Except BuildError Graph)
  /-- The files of a build were removed, so many of them. -/
  | cleaned (id : String) (count : Nat)
  /-- Files were changed from elsewhere, or builds that do not share the registry took numbers. -/
  | changed

namespace Event

/-- The name that an event is about. -/
def id? : Event → Option String
  | built id _ | cleaned id _ => some id
  | changed => none

/-- The name that a build was given. -/
def builtId? : Event → Option String
  | built id _ => some id
  | cleaned _ _ | changed => none

end Event

/-- The names that builds were given. -/
def builtIds (events : List Event) : List String := events.filterMap Event.builtId?

@[simp] theorem builtIds_built {id : String} {result : Except BuildError Graph} {events : List Event} :
    builtIds (.built id result :: events) = id :: builtIds events := rfl

@[simp] theorem builtIds_cleaned {id : String} {count : Nat} {events : List Event} :
    builtIds (.cleaned id count :: events) = builtIds events := rfl

@[simp] theorem builtIds_changed {events : List Event} : builtIds (.changed :: events) = builtIds events := rfl

@[simp] theorem builtIds_append {since before : List Event} :
    builtIds (since ++ before) = builtIds since ++ builtIds before := List.filterMap_append

/-- What an event does to all that builds share. -/
inductive Happens (fs : FileSystem σ) (s : BuildState σ) : Event → BuildState σ → Prop
  | built {b : Builder σ} {fuel : Nat} {root : Root} {result : Except BuildError Graph} {s' : BuildState σ}
      (hfiles : b.files = fs) (hregisters : b.registers = true) (h : b.build fuel root s = some (result, s')) :
      Happens fs s (.built (root.buildId s.builds) result) s'
  | cleaned {id : String} {count : Nat} {registry : Registry} {disk : σ}
      (h : s.registry.cleanup fs id s.disk = (count, registry, disk)) :
      Happens fs s (.cleaned id count) ⟨disk, registry, s.builds⟩
  | changed (disk : σ) {builds : Nat} (h : s.builds ≤ builds) : Happens fs s .changed ⟨disk, s.registry, builds⟩

/-- What has happened since a registry was empty, the latest first. -/
inductive History (fs : FileSystem σ) : List Event → BuildState σ → Prop
  | start (disk : σ) (builds : Nat) : History fs [] ⟨disk, .empty, builds⟩
  | next {events : List Event} {event : Event} {s s' : BuildState σ} (h : History fs events s)
      (hevent : Happens fs s event s') : History fs (event :: events) s'

/-! ## One event -/

section Happens

variable {fs : FileSystem σ} {s s' : BuildState σ} {event : Event}

/-- Numbers are not given back. -/
theorem Happens.builds_le (h : Happens fs s event s') : s.builds ≤ s'.builds := by
  cases h with
  | built _ _ hbuild =>
    rw [(Builder.others_of_build hbuild).1]
    exact Nat.le_succ _
  | cleaned => exact le_rfl
  | changed _ h => exact h

/-- An event leaves what is registered under other names than its own. -/
theorem Happens.registered_of_ne (h : Happens fs s event s') {id : String} (hid : event.id? ≠ some id) :
    s'.registry.registered id = s.registry.registered id := by
  cases h with
  | built _ _ hbuild => exact (Builder.others_of_build hbuild).2 id fun heq => hid (congrArg some heq.symm)
  | cleaned hcleanup =>
    obtain rfl := congrArg (·.2.1) hcleanup
    exact registered_erase_of_ne _ fun heq => hid (congrArg some heq.symm)
  | changed => rfl

end Happens

/-- Where nothing is registered, nothing is after the files of some build have been removed. -/
theorem registered_erase_eq_nil {r : Registry} {id : String} (h : r.registered id = []) (other : String) :
    (r.erase other).registered id = [] := by
  by_cases hid : id = other
  · rw [hid]
    exact registered_erase _ _
  · exact (registered_erase_of_ne _ hid).trans h

/-! ## Names -/

section Names

variable {fs : FileSystem σ} {events since before : List Event} {s : BuildState σ}

/-- The names that have been given hold numbers that have been taken. -/
theorem History.exists_number (h : History fs events s) {id : String} (hid : id ∈ builtIds events) :
    ∃ (root : Root) (n : Nat), n < s.builds ∧ id = root.buildId n := by
  induction h with
  | start => cases hid
  | @next events event s s' _ hevent ih =>
    have hold : id ∈ builtIds events → ∃ (root : Root) (n : Nat), n < s'.builds ∧ id = root.buildId n := by
      intro hid
      obtain ⟨root, n, hn, rfl⟩ := ih hid
      exact ⟨root, n, lt_of_lt_of_le hn hevent.builds_le, rfl⟩
    cases hevent with
    | @built b fuel root result s' _ _ hbuild =>
      rcases List.mem_cons.mp hid with rfl | hid
      · refine ⟨root, s.builds, ?_, rfl⟩
        rw [(Builder.others_of_build hbuild).1]
        exact Nat.lt_succ_self _
      · exact hold hid
    | cleaned => exact hold hid
    | changed => exact hold hid

/-- The next build gets a name that none has been given. -/
theorem History.not_mem_builtIds (h : History fs events s) (root : Root) : root.buildId s.builds ∉ builtIds events := by
  intro hid
  obtain ⟨root', n, hn, heq⟩ := h.exists_number hid
  have := Root.eq_of_buildId_eq heq
  omega

theorem History.nodup (h : History fs events s) : (builtIds events).Nodup := by
  induction h with
  | start => exact List.nodup_nil
  | next h hevent ih =>
    cases hevent with
    | @built b fuel root => exact List.nodup_cons.mpr ⟨h.not_mem_builtIds root, ih⟩
    | cleaned => exact ih
    | changed => exact ih

/-- Nothing is registered for a build before it begins. -/
theorem History.registered_of_le (h : History fs events s) (root : Root) {n : Nat} (hn : s.builds ≤ n) :
    s.registry.registered (root.buildId n) = [] := by
  induction h with
  | start => rfl
  | @next events event s s' _ hevent ih =>
    have hbefore := ih (hevent.builds_le.trans hn)
    cases hevent with
    | @built b fuel root' result s' hfiles hregisters hbuild =>
      have hother : root'.buildId s.builds ≠ root.buildId n := by
        intro heq
        have hnumber := Root.eq_of_buildId_eq heq
        rw [(Builder.others_of_build hbuild).1] at hn
        omega
      exact ((Happens.built hfiles hregisters hbuild).registered_of_ne fun h => hother (Option.some.inj h)).trans
        hbefore
    | @cleaned id count registry disk hcleanup =>
      obtain rfl : s.registry.erase id = registry := congrArg (·.2.1) hcleanup
      exact registered_erase_eq_nil hbefore id
    | changed => exact hbefore

/-! ## What is registered -/

/-- The files of a build that came to a graph stay registered until they are cleaned up. -/
theorem History.registered_of_built (h : History fs events s) {id : String} {g : Graph}
    (hevents : events = since ++ .built id (.ok g) :: before) (hsince : ∀ count, .cleaned id count ∉ since) :
    g.buildId = id ∧ s.registry.registered g.buildId = g.compiledFiles := by
  induction h generalizing since with
  | start => cases since <;> cases hevents
  | @next events event s s' h hevent ih =>
    cases since with
    | nil =>
      -- the build is the latest event
      obtain ⟨rfl, rfl⟩ := List.cons.inj hevents
      cases hevent with
      | @built b fuel root _ _ _ hregisters hbuild =>
        exact Builder.registered_of_build hregisters (h.registered_of_le root le_rfl) hbuild
    | cons latest since =>
      obtain ⟨rfl, hrest⟩ := List.cons.inj hevents
      obtain ⟨rfl, hregistered⟩ := ih hrest fun count hcount => hsince count (List.mem_cons_of_mem _ hcount)
      refine ⟨rfl, (hevent.registered_of_ne ?_).trans hregistered⟩
      cases hevent with
      | @built b fuel root =>
        have hbefore : g.buildId ∈ builtIds events := by simp [hrest]
        intro heq
        exact h.not_mem_builtIds root (Option.some.inj heq ▸ hbefore)
      | @cleaned id count =>
        intro heq
        exact hsince count (Option.some.inj heq ▸ List.mem_cons_self)
      | changed => exact fun heq => nomatch heq

/-- Nothing is registered under a name after a cleanup, until a build gets it. -/
theorem History.registered_of_cleaned (h : History fs events s) {id : String} {count : Nat}
    (hevents : events = since ++ .cleaned id count :: before) (hsince : id ∉ builtIds since) :
    s.registry.registered id = [] := by
  induction h generalizing since with
  | start => cases since <;> cases hevents
  | @next events event s s' h hevent ih =>
    cases since with
    | nil =>
      obtain ⟨rfl, rfl⟩ := List.cons.inj hevents
      cases hevent with
      | cleaned hcleanup =>
        obtain rfl := congrArg (·.2.1) hcleanup
        exact registered_erase _ _
    | cons latest since =>
      obtain ⟨rfl, hrest⟩ := List.cons.inj hevents
      cases hevent with
      | @built b fuel root result s' hfiles hregisters hbuild =>
        rw [builtIds_built, List.mem_cons, not_or] at hsince
        exact ((Happens.built hfiles hregisters hbuild).registered_of_ne fun heq =>
          hsince.1 (Option.some.inj heq).symm).trans (ih hrest hsince.2)
      | @cleaned other count registry disk hcleanup =>
        obtain rfl : s.registry.erase other = registry := congrArg (·.2.1) hcleanup
        exact registered_erase_eq_nil (ih hrest hsince) other
      | changed => exact ih hrest hsince

/-- A build that has begun before a cleanup has given its name away. -/
theorem History.not_mem_of_mem (h : History fs events s) {id : String} {count : Nat}
    (hevents : events = since ++ .cleaned id count :: before)
    (hbefore : id ∈ builtIds before) : id ∉ builtIds since := by
  have hnodup := h.nodup
  rw [hevents, builtIds_append, builtIds_cleaned] at hnodup
  exact fun hsince => (List.nodup_append.mp hnodup).2.2 id hsince id hbefore rfl

end Names

/-! ## Cleanups -/

/-- How many files a cleanup says were there, by the places that are gone from the disk. -/
def CountsGone (d after : Disk) (count : Nat) : Prop :=
  ∃ gone : List Place, gone.Nodup ∧ gone.length = count ∧ (∀ x, x ∈ gone ↔ d.Holds x ∧ ¬ after.Holds x) ∧
    ∀ x, x ∉ gone → after.get? x = d.get? x

/-- Where nothing is registered there is nothing to remove. -/
theorem cleanup_of_registered_eq_nil {fs : FileSystem σ} {r : Registry} {id : String} (h : r.registered id = [])
    (disk : σ) : r.cleanup fs id disk = (0, r.erase id, disk) := by
  unfold cleanup
  rw [h]
  rfl

/-- Whatever has happened to a registry: no two builds had the same name; what is registered for a build that came to a
graph and has not been cleaned up since are its compiled files, in their order; a cleanup leaves nothing registered
under its name, all that was under others, and says how many files it has taken from the disk, which holds all else as
before; and once a build has been cleaned up, a cleanup under its name finds nothing to remove. -/
theorem registered_of_history {events : List Event} {s : BuildState Disk} (h : History Disk.fileSystem events s) :
    (builtIds events).Nodup ∧
    (∀ since before id g, events = since ++ .built id (.ok g) :: before → (∀ count, .cleaned id count ∉ since) →
      g.buildId = id ∧ s.registry.registered g.buildId = g.compiledFiles) ∧
    (∀ id count registry disk, s.registry.cleanup Disk.fileSystem id s.disk = (count, registry, disk) →
      registry.registered id = [] ∧
      (∀ other, other ≠ id → registry.registered other = s.registry.registered other) ∧
      (s.disk.WellFormed → CountsGone s.disk disk count)) ∧
    (∀ since before id count, events = since ++ .cleaned id count :: before →
      (id ∈ builtIds before ∨ id ∉ builtIds since) →
      s.registry.cleanup Disk.fileSystem id s.disk = (0, s.registry.erase id, s.disk)) := by
  refine ⟨h.nodup, fun since before id g => h.registered_of_built, ?_, ?_⟩
  · intro id count registry disk hcleanup
    have hevent := Happens.cleaned hcleanup
    obtain ⟨rfl, rfl, rfl⟩ : (Disk.fileSystem.removeAll (s.registry.registered id) s.disk).1 = count ∧
        s.registry.erase id = registry ∧ s.disk.without (s.registry.registered id) = disk := by
      simpa [cleanup, Disk.without] using hcleanup
    exact ⟨registered_erase _ _, fun other hother => registered_erase_of_ne _ hother, fun hd => Disk.exists_gone hd _⟩
  · intro since before id count hevents hid
    have hsince : id ∉ builtIds since := hid.elim (h.not_mem_of_mem hevents) fun hsince => hsince
    exact cleanup_of_registered_eq_nil (h.registered_of_cleaned hevents hsince) _

end CellGraph.Registry

/-! ## Two builds and two cleanups -/

namespace CellGraph.Shared

open Registry

theorem history_of_both? {g other : Graph} {s : BuildState Disk} (h : both? = some (g, other, s)) :
    History Disk.fileSystem [.built (second.buildId 1) (.ok other), .built (first.buildId 0) (.ok g)] s := by
  unfold both? at h
  split at h
  · rename_i g₁ s₁ hfirst
    split at h
    · rename_i g₂ s₂ hsecond
      cases h
      have hnumber : s₁.builds = 1 := (Builder.others_of_build hfirst).1
      have hbuilt : Happens Disk.fileSystem s₁ (.built (second.buildId s₁.builds) (.ok other)) s :=
        .built rfl rfl hsecond
      rw [hnumber] at hbuilt
      exact ((History.start disk 0).next (.built rfl rfl hfirst)).next hbuilt
    · cases h
  · cases h

/-- The module of the first document is removed once. -/
theorem cleaned_twice : ∃ (g other : Graph) (s : BuildState Disk), History Disk.fileSystem
      [.cleaned g.buildId 1, .built other.buildId (.ok other), .built g.buildId (.ok g)] s ∧
    g.buildId ≠ other.buildId ∧ s.registry.registered other.buildId = other.compiledFiles ∧
    s.registry.cleanup Disk.fileSystem g.buildId s.disk = (0, s.registry.erase g.buildId, s.disk) := by
  have hcount : both?.map (fun x => (x.2.2.registry.cleanup Disk.fileSystem (first.buildId 0) x.2.2.disk).1) =
      some 1 := by decide +kernel
  obtain ⟨⟨g, other, s⟩, hboth, hcount⟩ := Option.map_eq_some_iff.mp hcount
  have hbuilds := history_of_both? hboth
  obtain ⟨hnodup, hkept, -, -⟩ := registered_of_history hbuilds
  obtain ⟨hfirst, -⟩ := hkept [.built (second.buildId 1) (.ok other)] [] _ g rfl (by simp)
  obtain ⟨hsecond, -⟩ := hkept [] _ _ other rfl (by simp)
  rw [← hfirst] at hbuilds hnodup hcount
  rw [← hsecond] at hbuilds hnodup
  have hcleaned : History Disk.fileSystem [.cleaned g.buildId 1, .built other.buildId (.ok other),
      .built g.buildId (.ok g)] ⟨_, _, s.builds⟩ := hbuilds.next (.cleaned (Prod.ext hcount rfl))
  have hne : g.buildId ≠ other.buildId := fun heq => (List.nodup_cons.mp hnodup).1 (heq ▸ List.mem_cons_self)
  have hother : ∀ count, .cleaned other.buildId count ∉ [Event.cleaned g.buildId 1] := by
    intro count hmem
    exact hne (Event.cleaned.inj (List.mem_singleton.mp hmem)).1.symm
  obtain ⟨-, hkept, -, hagain⟩ := registered_of_history hcleaned
  refine ⟨g, other, _, hcleaned, hne, (hkept [_] [_] _ other rfl hother).2, ?_⟩
  exact hagain [] _ g.buildId 1 rfl (Or.inr List.not_mem_nil)

end CellGraph.Shared
