import CellGraph.Proofs.Way

/-!
# Equivalent paths

Without looking at any file, two lists of components lead to the same place if one becomes the other by dropping points,
by dropping a name with the step up behind it, and by dropping a step up behind the root, or by undoing this
(`Component.Equivalent`). No order of doing so matters: all that counts of a list is what it does to the components in
front of it (`Component.Equivalent.foldl_pushComponent`), and every list is equivalent to its normal form
(`Component.equivalent_normalComponents`). So a normal form stands for all paths that are equivalent, and it consists of
names below the root, or of names behind steps up (`Path.normalize_canonical`).
-/

namespace CellGraph

namespace Component

/-- The least equivalence, closed under surrounding components, that drops points, names with the step up behind them,
and steps up behind the root. -/
inductive Equivalent : List Component → List Component → Prop
  | current : Equivalent [.current] []
  | cancel (name : String) : Equivalent [.normal name, .parent] []
  | stay : Equivalent [.root, .parent] [.root]
  | surround (before after : List Component) {cs ds : List Component} (h : Equivalent cs ds) :
      Equivalent (before ++ cs ++ after) (before ++ ds ++ after)
  | refl (cs : List Component) : Equivalent cs cs
  | symm {cs ds : List Component} (h : Equivalent cs ds) : Equivalent ds cs
  | trans {cs ds es : List Component} (h : Equivalent cs ds) (h' : Equivalent ds es) : Equivalent cs es

variable {cs ds : List Component}

/-- Equivalent components do the same to the components that are done before them. -/
theorem Equivalent.foldl_pushComponent (h : Equivalent cs ds) (done : List Component) :
    cs.foldl Path.pushComponent done = ds.foldl Path.pushComponent done := by
  induction h generalizing done with
  | current => rfl
  | cancel name => rfl
  | stay => rfl
  | surround before after _ ih => rw [List.foldl_append, List.foldl_append, List.foldl_append, List.foldl_append, ih]
  | refl cs => rfl
  | symm _ ih => exact (ih done).symm
  | trans _ _ ih ih' => exact (ih done).trans (ih' done)

theorem Equivalent.behind (before : List Component) (h : Equivalent cs ds) :
    Equivalent (before ++ cs) (before ++ ds) := by
  have hsurround := h.surround before []
  rwa [List.append_nil, List.append_nil] at hsurround

/-- What is done and one component more are equivalent to what is done then. -/
theorem equivalent_pushComponent (done : List Component) (c : Component) :
    Equivalent (done.reverse ++ [c]) (Path.pushComponent done c).reverse := by
  cases c with
  | root => exact List.reverse_cons ▸ .refl _
  | normal name => exact List.reverse_cons ▸ .refl _
  | current =>
    have hpoint := Equivalent.current.behind done.reverse
    rwa [List.append_nil] at hpoint
  | parent =>
    cases done with
    | nil => exact .refl _
    | cons top rest =>
      cases top with
      | normal name =>
        have hcancel := (Equivalent.cancel name).behind rest.reverse
        rw [List.append_nil] at hcancel
        rwa [List.reverse_cons, List.append_assoc]
      | root =>
        have hstay := Equivalent.stay.behind rest.reverse
        rw [← List.reverse_cons] at hstay
        rwa [List.reverse_cons, List.append_assoc]
      | current => exact List.reverse_cons ▸ .refl _
      | parent => exact List.reverse_cons ▸ .refl _

/-- Every list of components is equivalent to its normal form. -/
theorem equivalent_normalComponents (cs : List Component) : Equivalent cs (Path.normalComponents cs) := by
  have hfold : ∀ done : List Component,
      Equivalent (done.reverse ++ cs) (cs.foldl Path.pushComponent done).reverse := by
    induction cs with
    | nil =>
      intro done
      rw [List.append_nil]
      exact .refl _
    | cons c cs ih =>
      intro done
      have hpush := (equivalent_pushComponent done c).surround [] cs
      rw [List.nil_append, List.nil_append, List.append_assoc, List.singleton_append] at hpush
      exact hpush.trans (ih _)
  exact hfold []

/-- Components are equivalent just if they have one normal form. -/
theorem normalComponents_eq_iff : Path.normalComponents cs = Path.normalComponents ds ↔ Equivalent cs ds := by
  constructor
  · intro h
    exact (equivalent_normalComponents cs).trans (h ▸ (equivalent_normalComponents ds).symm)
  · intro h
    exact congrArg List.reverse (h.foldl_pushComponent [])

end Component

namespace Path

variable {p : Path} {c : Component} {cs names : List Component}

/-- Whether two paths lead to the same place for all that their components say. -/
def Equivalent (p q : Path) : Prop := Component.Equivalent p.components q.components

/-! ## The shape of normal forms -/

/-- The components of a relative path are not behind a root. -/
theorem components_of_not_isAbsolute (hp : p.isAbsolute = false) :
    ∃ cs, (∀ c ∈ cs, c.Plain) ∧ (p.components = cs ∨ p.components = .current :: cs) := by
  have hroot : .root ∉ p.components := by
    intro hmem
    have hhead : ¬ p.chars.head? = some '/' := by simpa [isAbsolute] using hp
    have hkept : .root ∈ (textComponents p.chars).filter (· ≠ .current) := List.mem_filter.mpr ⟨hmem, by decide⟩
    rw [filter_textComponents, if_neg hhead, List.nil_append] at hkept
    obtain ⟨segment, -, hsegment⟩ := List.mem_filterMap.mp hkept
    unfold segmentComponent? at hsegment
    split at hsegment <;> cases hsegment
  obtain ⟨cs, hcs, h | h | h⟩ := p.components_cases
  · exact ⟨cs, hcs, Or.inl h⟩
  · exact absurd (h ▸ List.mem_cons_self) hroot
  · exact ⟨cs, hcs, Or.inr h⟩

/-- Names on top of steps up stay so. -/
theorem exists_steps_push (steps : Nat) (h : Named names) (hc : c.Plain) : ∃ steps' names', Named names' ∧
    pushComponent (names ++ List.replicate steps .parent) c = names' ++ List.replicate steps' .parent := by
  cases c with
  | root => exact absurd rfl hc.ne_root
  | current => exact absurd rfl hc.ne_current
  | normal name => exact ⟨steps, .normal name :: names, List.forall_mem_cons.mpr ⟨⟨hc, by simp⟩, h⟩, rfl⟩
  | parent =>
    cases names with
    | nil =>
      -- a step up is kept behind steps up, and where nothing is done yet
      refine ⟨steps + 1, [], h, ?_⟩
      cases steps <;> rfl
    | cons top rest =>
      obtain ⟨htop, hrest⟩ := List.forall_mem_cons.mp h
      obtain ⟨name, rfl⟩ := exists_name htop
      exact ⟨steps, rest, hrest, rfl⟩

/-- The normal form of components that are not behind the root consists of names behind steps up. -/
theorem exists_steps (hcs : ∀ c ∈ cs, c.Plain) :
    ∃ steps names, Named names ∧ normalComponents cs = List.replicate steps .parent ++ names := by
  have hfold : ∀ {cs names : List Component} {steps : Nat}, (∀ c ∈ cs, c.Plain) → Named names → ∃ steps' names',
      Named names' ∧
        cs.foldl pushComponent (names ++ List.replicate steps .parent) = names' ++ List.replicate steps' .parent := by
    intro cs
    induction cs with
    | nil => exact fun _ hnames => ⟨_, _, hnames, rfl⟩
    | cons c cs ih =>
      intro names steps hcs hnames
      obtain ⟨hc, hcs⟩ := List.forall_mem_cons.mp hcs
      obtain ⟨steps', names', hnames', hpush⟩ := exists_steps_push steps hnames hc
      rw [List.foldl_cons, hpush]
      exact ih hcs hnames'
  obtain ⟨steps, names, hnames, hnormal⟩ := @hfold cs [] 0 hcs (by simp [Named])
  refine ⟨steps, names.reverse, hnames.mono fun c hc => List.mem_reverse.mp hc, ?_⟩
  have hpushed : normalComponents cs = (cs.foldl pushComponent ([] ++ List.replicate 0 .parent)).reverse := rfl
  rw [hpushed, hnormal, List.reverse_append, List.reverse_replicate]

/-- A normal form consists of names, below the root if the path is absolute, and behind steps up if it is relative. -/
theorem exists_components_normalize (p : Path) : ∃ steps names, Named names ∧
    p.normalize.components = (if p.isAbsolute then [.root] else List.replicate steps .parent) ++ names := by
  rw [components_normalize]
  cases hp : p.isAbsolute with
  | true =>
    obtain ⟨cs, hcs, hcomponents⟩ := components_of_isAbsolute hp
    obtain ⟨names, hnames, hnormal⟩ := exists_named hcs
    exact ⟨0, names, hnames, hcomponents ▸ hnormal⟩
  | false =>
    obtain ⟨cs, hcs, hcomponents⟩ := components_of_not_isAbsolute hp
    obtain ⟨steps, names, hnames, hnormal⟩ := exists_steps hcs
    have hpoint : normalComponents p.components = normalComponents cs := by
      rcases hcomponents with h | h <;> rw [h]
      rfl
    exact ⟨steps, names, hnames, hpoint.trans hnormal⟩

/-- A normal form is absolute just if its path is. -/
theorem isAbsolute_normalize (p : Path) : p.normalize.isAbsolute = p.isAbsolute := by
  cases hp : p.isAbsolute with
  | true => exact (canonical_normalize_of_isAbsolute hp).isAbsolute
  | false =>
    obtain ⟨steps, names, hnames, hcomponents⟩ := p.exists_components_normalize
    rw [components_normalize, hp] at hcomponents
    unfold normalize
    rw [hcomponents]
    exact isAbsolute_ofComponents (plain_steps steps hnames)

/-! ## Normal forms stand for equivalent paths -/

/-- Two paths have the same normal form just if they are equivalent. It has no points, is absolute just if the path is,
and consists of names behind the root, or of names behind steps up. -/
theorem normalize_canonical (p q : Path) :
    (p.normalize.same q.normalize = true ↔ p.Equivalent q) ∧
      .current ∉ p.normalize.components ∧
      p.normalize.isAbsolute = p.isAbsolute ∧
      ∃ steps names, Named names ∧
        p.normalize.components = (if p.isAbsolute then [.root] else List.replicate steps .parent) ++ names := by
  obtain ⟨steps, names, hnames, hcomponents⟩ := p.exists_components_normalize
  refine ⟨?_, ?_, p.isAbsolute_normalize, steps, names, hnames, hcomponents⟩
  · rw [same_iff, components_normalize, components_normalize]
    exact Component.normalComponents_eq_iff
  · intro hcurrent
    rw [hcomponents] at hcurrent
    rcases List.mem_append.mp hcurrent with hcurrent | hcurrent
    · split at hcurrent
      · cases List.mem_singleton.mp hcurrent
      · cases List.eq_of_mem_replicate hcurrent
    · exact (hnames _ hcurrent).1.ne_current rfl

end Path

end CellGraph
