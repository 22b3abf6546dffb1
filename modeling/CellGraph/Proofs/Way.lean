import CellGraph.Proofs.NormalPath
import Mathlib.Data.List.Basic

/-!
# Ways between paths

An absolute normal path consists of names below the root (`Path.Canonical.exists_names`), and its directory is such a
path again (`Path.Canonical.parent?_getD`). The way from one of them to another goes up to where the two part, and down
from there by names (`Path.Canonical.exists_parting`). Behind any path it does the same: as many steps up, and down by
the same names (`Path.normalComponents_join_way`). Written as a reference it says the same
(`Path.components_reference`).
-/

namespace CellGraph

/-! ## Components behind one another -/

theorem splitSlashes_append (xs ys : List Char) :
    splitSlashes (xs ++ '/' :: ys) = splitSlashes xs ++ splitSlashes ys := by
  induction xs with
  | nil => exact splitSlashes_slash ys
  | cons c cs ih =>
    by_cases hc : c = '/'
    · rw [hc, List.cons_append, splitSlashes_slash, splitSlashes_slash, ih, List.cons_append]
    · cases hs : splitSlashes cs with
      | nil => exact absurd hs (splitSlashes_ne_nil cs)
      | cons segment segments =>
        rw [hs] at ih
        simp [splitSlashes, hc, ih, hs]

/-- No segment is a point. -/
theorem segmentComponent?_ne_current (segment : List Char) : segmentComponent? segment ≠ some .current := by
  unfold segmentComponent?
  split <;> simp

theorem filter_filterMap_segmentComponent? (segments : List (List Char)) :
    (segments.filterMap segmentComponent?).filter (· ≠ .current) = segments.filterMap segmentComponent? := by
  refine List.filter_eq_self.mpr fun c hc => ?_
  obtain ⟨segment, -, hsegment⟩ := List.mem_filterMap.mp hc
  refine decide_eq_true fun h => segmentComponent?_ne_current segment ?_
  rw [hsegment, h]

/-- Apart from a point at its start, the components of a text are the root, if it starts with a slash, and those of its
segments. -/
theorem filter_textComponents (text : List Char) : (textComponents text).filter (· ≠ .current) =
    (if text.head? = some '/' then [.root] else []) ++ (splitSlashes text).filterMap segmentComponent? := by
  cases text with
  | nil => rfl
  | cons c cs =>
    cases hs : splitSlashes cs with
    | nil => exact absurd hs (splitSlashes_ne_nil cs)
    | cons segment segments =>
      by_cases hc : c = '/'
      · have hroot : (([] : List Char) :: segment :: segments).filterMap segmentComponent? =
            (segment :: segments).filterMap segmentComponent? := rfl
        rw [hc, textComponents, splitSlashes_slash, hs, List.head?_cons, if_pos rfl, hroot]
        exact congrArg (Component.root :: ·) (filter_filterMap_segmentComponent? _)
      · have hsplit : splitSlashes (c :: cs) = (c :: segment) :: segments := by simp [splitSlashes, hc, hs]
        have hhead : ¬ (c :: cs).head? = some '/' := by simp [hc]
        rw [textComponents, hsplit, if_neg hhead, List.nil_append]
        split
        · rename_i h; cases h
        · rename_i h; cases h
        · rename_i h; cases h
        · rename_i h
          cases h
          exact filter_filterMap_segmentComponent? segments
        · exact filter_filterMap_segmentComponent? _

namespace Path

variable {p q base : Path} {c : Component} {cs names : List Component}

/-- Points inside a path have no part in its normal form. -/
theorem normalComponents_filter (cs : List Component) :
    normalComponents (cs.filter (· ≠ .current)) = normalComponents cs := by
  have hfold : ∀ done, (cs.filter (· ≠ .current)).foldl pushComponent done = cs.foldl pushComponent done := by
    induction cs with
    | nil => intro done; rfl
    | cons c cs ih =>
      intro done
      by_cases hc : c = .current
      · rw [List.filter_cons_of_neg (by simp [hc]), List.foldl_cons, hc]
        exact ih done
      · rw [List.filter_cons_of_pos (by simp [hc]), List.foldl_cons, List.foldl_cons]
        exact ih _
  unfold normalComponents
  rw [hfold]

/-- A relative path behind another one adds its components. -/
theorem filter_components_join (p : Path) (hq : q.isAbsolute = false) : (p.join q).components.filter (· ≠ .current) =
    p.components.filter (· ≠ .current) ++ q.components.filter (· ≠ .current) := by
  have hhead : ¬ q.chars.head? = some '/' := by simpa [isAbsolute] using hq
  have hslash : ∀ xs : List Char, (textComponents (xs ++ '/' :: q.chars)).filter (· ≠ .current) =
      (textComponents (xs ++ ['/'])).filter (· ≠ .current) ++ (textComponents q.chars).filter (· ≠ .current) := by
    intro xs
    have hfirst : (xs ++ '/' :: q.chars).head? = (xs ++ ['/']).head? := by cases xs <;> rfl
    rw [filter_textComponents, filter_textComponents, filter_textComponents, if_neg hhead, hfirst,
      splitSlashes_append, splitSlashes_append]
    simp [splitSlashes, segmentComponent?]
  unfold components
  by_cases hnil : p.chars = []
  · rw [chars_join_of_slash hq (Or.inl hnil), hnil]
    rfl
  · by_cases hlast : p.chars.getLast? = some '/'
    · obtain ⟨xs, hxs⟩ := List.getLast?_eq_some_iff.mp hlast
      have hchars : (p.join q).chars = xs ++ '/' :: q.chars := by
        rw [chars_join_of_slash hq (Or.inr hlast), hxs, List.append_assoc, List.singleton_append]
      rw [hchars, hslash, hxs]
    · have hfirst : (p.chars ++ ['/']).head? = p.chars.head? := List.head?_append_of_ne_nil _ hnil
      have hend : (textComponents (p.chars ++ ['/'])).filter (· ≠ .current) =
          (textComponents p.chars).filter (· ≠ .current) := by
        rw [filter_textComponents, filter_textComponents, hfirst, splitSlashes_append]
        simp [splitSlashes, segmentComponent?]
      rw [chars_join hq hnil hlast, hslash, hend]

/-- A path is absolute if the root is among its components. -/
theorem isAbsolute_iff : p.isAbsolute = true ↔ .root ∈ p.components.filter (· ≠ .current) := by
  have hnone : Component.root ∉ (splitSlashes p.chars).filterMap segmentComponent? := by
    intro hroot
    obtain ⟨segment, hmem, hsegment⟩ := List.mem_filterMap.mp hroot
    exact (Component.plain_of_segmentComponent? (not_mem_of_mem_splitSlashes hmem) hsegment).1.ne_root rfl
  rw [components, filter_textComponents, List.mem_append, or_iff_left hnone, isAbsolute]
  split <;> simp_all

/-- A relative path behind another one goes on from there. -/
theorem normalComponents_join (p : Path) (hq : q.isAbsolute = false) :
    normalComponents (p.join q).components = normalComponents (p.components ++ q.components) := by
  rw [← normalComponents_filter, filter_components_join p hq, ← List.filter_append, normalComponents_filter]

/-! ## Absolute normal paths -/

/-- Whether components are all names. -/
def Named (cs : List Component) : Prop := ∀ c ∈ cs, c.Plain ∧ c ≠ .parent

theorem exists_name (h : c.Plain ∧ c ≠ .parent) : ∃ name, c = .normal name := by
  cases c with
  | root => exact absurd rfl h.1.ne_root
  | current => exact absurd rfl h.1.ne_current
  | parent => exact absurd rfl h.2
  | normal name => exact ⟨name, rfl⟩

theorem Named.plain (h : Named cs) : ∀ c ∈ cs, c.Plain := fun c hc => (h c hc).1

theorem Named.mono (h : Named names) (hsubset : cs ⊆ names) : Named cs := fun c hc => h c (hsubset hc)

/-- Names add to a normal form what they are. -/
theorem normalComponents_append (cs : List Component) (h : Named names) :
    normalComponents (cs ++ names) = normalComponents cs ++ names := by
  have hpush : ∀ done, names.foldl pushComponent done = names.reverse ++ done := by
    induction names with
    | nil => intro done; rfl
    | cons c names ih =>
      intro done
      obtain ⟨hc, hnames⟩ := List.forall_mem_cons.mp h
      obtain ⟨name, rfl⟩ := exists_name hc
      have hpushed : pushComponent done (.normal name) = .normal name :: done := rfl
      rw [List.foldl_cons, hpushed, ih hnames]
      simp
  unfold normalComponents
  rw [List.foldl_append, hpush]
  simp

/-- Names on top of the root stay so. -/
theorem exists_named_push {c : Component} (h : Named names) (hc : c.Plain) :
    ∃ names', Named names' ∧ pushComponent (names ++ [.root]) c = names' ++ [.root] := by
  cases c with
  | root => exact absurd rfl hc.ne_root
  | current => exact absurd rfl hc.ne_current
  | normal name => exact ⟨.normal name :: names, List.forall_mem_cons.mpr ⟨⟨hc, by simp⟩, h⟩, rfl⟩
  | parent =>
    cases names with
    | nil => exact ⟨[], h, rfl⟩
    | cons top rest =>
      obtain ⟨htop, hrest⟩ := List.forall_mem_cons.mp h
      obtain ⟨name, rfl⟩ := exists_name htop
      exact ⟨rest, hrest, rfl⟩

/-- The components of an absolute path come behind the root. -/
theorem components_of_isAbsolute (hp : p.isAbsolute = true) :
    ∃ cs, (∀ c ∈ cs, c.Plain) ∧ p.components = .root :: cs := by
  have hroot : p.components.head? = some .root := by
    obtain ⟨rest, hrest⟩ : ∃ rest, p.chars = '/' :: rest := List.head?_eq_some_iff.mp (by simpa [isAbsolute] using hp)
    cases hs : splitSlashes rest with
    | nil => exact absurd hs (splitSlashes_ne_nil rest)
    | cons segment segments => simp [components, hrest, textComponents, splitSlashes_slash, hs]
  obtain ⟨cs, hcs, h | h | h⟩ := p.components_cases
  · rw [h] at hroot
    exact absurd rfl (hcs .root (List.mem_of_head? hroot)).ne_root
  · exact ⟨cs, hcs, h⟩
  · rw [h] at hroot
    cases hroot

/-- The normal form of components below the root consists of names below it. -/
theorem exists_named (hcs : ∀ c ∈ cs, c.Plain) :
    ∃ names, Named names ∧ normalComponents (.root :: cs) = .root :: names := by
  have hfold : ∀ {cs names : List Component}, (∀ c ∈ cs, c.Plain) → Named names →
      ∃ names', Named names' ∧ cs.foldl pushComponent (names ++ [.root]) = names' ++ [.root] := by
    intro cs
    induction cs with
    | nil => exact fun _ hnames => ⟨_, hnames, rfl⟩
    | cons c cs ih =>
      intro names hcs hnames
      obtain ⟨hc, hcs⟩ := List.forall_mem_cons.mp hcs
      obtain ⟨names', hnames', hpush⟩ := exists_named_push hnames hc
      rw [List.foldl_cons, hpush]
      exact ih hcs hnames'
  obtain ⟨names, hnames, hnormal⟩ := @hfold cs [] hcs (by simp [Named])
  refine ⟨names.reverse, hnames.mono fun c hc => List.mem_reverse.mp hc, ?_⟩
  have hpushed : normalComponents (.root :: cs) = (cs.foldl pushComponent ([] ++ [.root])).reverse := rfl
  rw [hpushed, hnormal]
  simp

/-- A normal form has no components of its own. -/
theorem mem_of_mem_normalComponents (h : c ∈ normalComponents cs) : c ∈ cs := by
  have hpush : ∀ {done : List Component} {d : Component}, c ∈ pushComponent done d → c ∈ done ∨ c = d := by
    intro done d hc
    unfold pushComponent at hc
    split at hc
    · exact Or.inl hc
    · split at hc
      · exact Or.inl (List.mem_cons_of_mem _ hc)
      · exact Or.inl hc
      · exact (List.mem_cons.mp hc).symm
    · exact (List.mem_cons.mp hc).symm
  have hfold : ∀ {cs done : List Component}, c ∈ cs.foldl pushComponent done → c ∈ done ∨ c ∈ cs := by
    intro cs
    induction cs with
    | nil => exact fun hc => Or.inl hc
    | cons d cs ih =>
      intro done hc
      rcases ih hc with hc | hc
      · rcases hpush hc with hc | rfl
        · exact Or.inl hc
        · exact Or.inr List.mem_cons_self
      · exact Or.inr (List.mem_cons_of_mem _ hc)
  rcases hfold (List.mem_reverse.mp h) with hc | hc
  · cases hc
  · exact hc

/-- Whether a path is absolute and normal, as it is written. -/
structure Canonical (p : Path) : Prop where
  isAbsolute : p.isAbsolute = true
  normalize : p.normalize = p

theorem Canonical.exists_names (h : p.Canonical) :
    ∃ names, Named names ∧ p.components = .root :: names ∧ p = ofComponents (.root :: names) := by
  obtain ⟨cs, hcs, hcomponents⟩ := components_of_isAbsolute h.isAbsolute
  obtain ⟨names, hnames, hnormal⟩ := exists_named hcs
  have hp := h.normalize
  unfold Path.normalize at hp
  rw [hcomponents, hnormal] at hp
  refine ⟨names, hnames, ?_, hp.symm⟩
  rw [← hp]
  exact components_ofComponents (.absolute hnames.plain)

theorem Canonical.eq_ofComponents (h : p.Canonical) : p = ofComponents p.components := by
  obtain ⟨names, -, hcomponents, hp⟩ := h.exists_names
  rw [hcomponents]
  exact hp

theorem canonical_ofComponents (h : Named names) : (ofComponents (.root :: names)).Canonical := by
  have hcomponents := components_ofComponents (.absolute h.plain)
  refine ⟨?_, ?_⟩
  · unfold isAbsolute
    rw [chars_ofComponents_root h.plain]
    rfl
  · unfold Path.normalize
    rw [hcomponents, ← List.singleton_append, normalComponents_append _ h]
    rfl

theorem canonical_normalize_of_components (hcs : ∀ c ∈ cs, c.Plain) (hp : p.components = .root :: cs) :
    p.normalize.Canonical := by
  obtain ⟨names, hnames, hnormal⟩ := exists_named hcs
  unfold Path.normalize
  rw [hp, hnormal]
  exact canonical_ofComponents hnames

/-- The normal form of an absolute path is an absolute normal path. -/
theorem canonical_normalize_of_isAbsolute (h : p.isAbsolute = true) : p.normalize.Canonical := by
  obtain ⟨cs, hcs, hp⟩ := components_of_isAbsolute h
  exact canonical_normalize_of_components hcs hp

/-- A normal form that is absolute is an absolute normal path. -/
theorem canonical_normalize (h : p.normalize.isAbsolute = true) : p.normalize.Canonical := by
  obtain ⟨rest, -, hrest⟩ := components_of_isAbsolute h
  rw [components_normalize] at hrest
  have hroot : Component.root ∈ p.components := mem_of_mem_normalComponents (hrest ▸ List.mem_cons_self)
  obtain ⟨cs, hcs, hp | hp | hp⟩ := p.components_cases
  · rw [hp] at hroot
    exact absurd rfl (hcs .root hroot).ne_root
  · exact canonical_normalize_of_components hcs hp
  · rw [hp] at hroot
    rcases List.mem_cons.mp hroot with hroot | hroot
    · cases hroot
    · exact absurd rfl (hcs .root hroot).ne_root

/-- What goes on from an absolute path is absolute. -/
theorem isAbsolute_join (h : p.isAbsolute = true) (q : Path) : (p.join q).isAbsolute = true := by
  cases hq : q.isAbsolute with
  | true => simp only [join, hq, if_true]
  | false =>
    obtain ⟨rest, hrest⟩ : ∃ rest, p.chars = '/' :: rest := List.head?_eq_some_iff.mp (by simpa [isAbsolute] using h)
    unfold isAbsolute
    by_cases hlast : p.chars.getLast? = some '/'
    · rw [chars_join_of_slash hq (Or.inr hlast), hrest]
      rfl
    · rw [chars_join hq (by simp [hrest]) hlast, hrest]
      rfl

/-! ## The directory of a path -/

/-- The segments of a path that is written from the root on. -/
theorem cutSegments_eq (h : ∀ c ∈ cs, c.Plain) (hp : p.chars = '/' :: joinSlashes (cs.map (·.text.toList))) :
    p.cutSegments = [] :: cs.map (·.text.toList) := by
  unfold cutSegments
  rw [hp, splitSlashes_slash]
  cases hcs : cs.reverse with
  | nil =>
    rw [List.reverse_eq_nil_iff.mp hcs]
    rfl
  | cons last rest =>
    have hlast : last.Plain := h last (List.mem_reverse.mp (hcs ▸ List.mem_cons_self))
    have hne : cs ≠ [] := by
      rintro rfl
      cases hcs
    have hkept : (cs.map (·.text.toList)).reverse.dropWhile (fun segment => (segmentComponent? segment).isNone) =
        (cs.map (·.text.toList)).reverse := by
      rw [← List.map_reverse, hcs, List.map_cons, List.dropWhile_cons_of_neg]
      simp [hlast.2]
    rw [splitSlashes_of_plain h hne]
    split
    · rename_i hnil; cases hnil
    · rename_i hnil
      simp [hne] at hnil
    · rename_i hsegments
      cases hsegments
      rw [hkept, List.reverse_reverse]

/-- Segments behind an empty one are written from the root on. -/
theorem ofSegments_eq (h : ∀ c ∈ cs, c.Plain) :
    ofSegments ([] :: cs.map (·.text.toList)) = ofComponents (.root :: cs) := by
  have hchars : ∀ q : Path, ofChars q.chars = q := fun q => by simp [ofChars, chars]
  cases cs with
  | nil => decide
  | cons c cs =>
    rw [← hchars (ofComponents _), chars_ofComponents_root h]
    rfl

theorem parent?_getD_eq (h : Named names) :
    ((ofComponents (.root :: names)).parent?).getD ⟨"/"⟩ = ofComponents (.root :: names.dropLast) := by
  cases hnames : names.reverse with
  | nil =>
    rw [List.reverse_eq_nil_iff.mp hnames]
    decide
  | cons last rest =>
    obtain rfl : names = rest.reverse ++ [last] := by
      rw [← List.reverse_reverse names, hnames, List.reverse_cons]
    have hrest : ∀ c ∈ rest.reverse, c.Plain := fun c hc => h.plain c (List.mem_append_left _ hc)
    have hlast : last ≠ .root := (h.plain last (by simp)).ne_root
    have hcomponents := components_ofComponents (.absolute h.plain)
    have hcut := cutSegments_eq h.plain (chars_ofComponents_root h.plain)
    have hcut' := cutSegments_eq hrest (chars_ofComponents_root hrest)
    have hdrop : ([] :: (rest.reverse ++ [last]).map (·.text.toList)).dropLast =
        ([] : List Char) :: rest.reverse.map (·.text.toList) := by
      rw [List.map_append, List.map_singleton, ← List.cons_append, List.dropLast_concat]
    have hlast? : (Component.root :: (rest.reverse ++ [last])).getLast? = some last := by
      rw [← List.cons_append, List.getLast?_concat]
    unfold parent?
    rw [hcomponents, hlast?, hcut, hdrop, ofSegments_eq hrest, hcut', ofSegments_eq hrest, List.dropLast_concat]
    split
    · rename_i hnone; cases hnone
    · rename_i hroot
      cases hroot
      exact absurd rfl hlast
    · rfl

/-- The directory of an absolute normal path is one, too. -/
theorem Canonical.parent?_getD (h : p.Canonical) : (p.parent?.getD ⟨"/"⟩).Canonical := by
  obtain ⟨names, hnames, -, rfl⟩ := h.exists_names
  rw [parent?_getD_eq hnames]
  exact canonical_ofComponents (hnames.mono (List.dropLast_sublist names).subset)

/-! ## Ways -/

theorem isAbsolute_ofComponents (h : ∀ c ∈ cs, c.Plain) : (ofComponents cs).isAbsolute = false := by
  refine Bool.eq_false_iff.mpr fun habsolute => ?_
  obtain ⟨rest, -, hrest⟩ := components_of_isAbsolute habsolute
  rw [components_ofComponents (.relative h)] at hrest
  rw [hrest] at h
  exact absurd rfl (h .root List.mem_cons_self).ne_root

theorem filter_components_ofComponents (h : ∀ c ∈ cs, c.Plain) :
    (ofComponents cs).components.filter (· ≠ .current) = cs := by
  rw [components_ofComponents (.relative h)]
  exact List.filter_eq_self.mpr fun c hc => decide_eq_true (h c hc).ne_current

/-- Where some steps up from a place lead. -/
def above (n : Nat) (cs : List Component) : List Component := normalComponents (cs ++ List.replicate n .parent)

/-- How many steps up the way from a path to another one takes. -/
def stepsUp (p base : Path) : Nat := ((p.from? base).map fun way => way.components.count .parent).getD 0

theorem plain_parent : Component.parent.Plain := ⟨by decide, rfl⟩

/-- As many steps up as there are names lead back to where the names start. -/
theorem above_append (cs : List Component) (h : Named names) :
    above names.length (cs ++ names) = normalComponents cs := by
  have hup : ∀ {names done : List Component}, Named names →
      (List.replicate names.length Component.parent).foldl pushComponent (names ++ done) = done := by
    intro names done hnames
    induction names with
    | nil => rfl
    | cons c names ih =>
      obtain ⟨hc, hrest⟩ := List.forall_mem_cons.mp hnames
      obtain ⟨name, rfl⟩ := exists_name hc
      exact ih hrest
  have hreverse : Named names.reverse := h.mono fun c hc => List.mem_reverse.mp hc
  have hnormal := congrArg List.reverse (normalComponents_append cs h)
  unfold normalComponents at hnormal
  rw [List.reverse_reverse, List.reverse_append, List.reverse_reverse] at hnormal
  unfold above normalComponents
  rw [List.foldl_append, hnormal, ← List.length_reverse, hup hreverse]

/-- The way between names goes up over those where the two differ, and down. -/
theorem exists_wayFrom? (target : List Component) (hbase : Named names) : ∃ common rest dropped,
    target = common ++ rest ∧ names = common ++ dropped ∧
      wayFrom? false target names = some (List.replicate dropped.length .parent ++ rest) := by
  induction target generalizing names with
  | nil =>
    cases names with
    | nil => exact ⟨[], [], [], rfl, rfl, rfl⟩
    | cons b base => exact ⟨[], [], b :: base, rfl, rfl, by simp [wayFrom?, List.replicate_succ]⟩
  | cons t target ih =>
    cases names with
    | nil => exact ⟨[], t :: target, [], rfl, rfl, rfl⟩
    | cons b base =>
      obtain ⟨hb, hrest⟩ := List.forall_mem_cons.mp hbase
      by_cases hsame : t = b
      · obtain ⟨common, rest, dropped, rfl, rfl, hway⟩ := ih hrest
        exact ⟨b :: common, rest, dropped, by rw [hsame, List.cons_append], rfl, by simp [wayFrom?, hsame, hway]⟩
      · have hcurrent := hb.1.ne_current
        exact ⟨[], t :: target, b :: base, rfl, rfl, by
          simp [wayFrom?, hsame, hcurrent, hb.2, upAndDown, List.replicate_succ]⟩

/-- A way that goes up and then down by names can be written. -/
theorem plain_steps (n : Nat) (h : Named names) : ∀ c ∈ List.replicate n Component.parent ++ names, c.Plain := by
  intro c hc
  rcases List.mem_append.mp hc with hc | hc
  · exact List.eq_of_mem_replicate hc ▸ plain_parent
  · exact h.plain c hc

/-- Two absolute normal paths part somewhere. The way from the one to the other goes up to there, and down. -/
theorem Canonical.exists_parting (hp : p.Canonical) (hbase : base.Canonical) : ∃ common rest dropped,
    Named rest ∧ p.components = common ++ rest ∧ base.components = common ++ dropped ∧
      above dropped.length base.components = common ∧
      p.from? base = some (ofComponents (List.replicate dropped.length .parent ++ rest)) := by
  obtain ⟨target, htarget, hpcomponents, -⟩ := hp.exists_names
  obtain ⟨start, hstart, hbcomponents, -⟩ := hbase.exists_names
  obtain ⟨common, rest, dropped, rfl, rfl, hway⟩ := exists_wayFrom? target hstart
  have hcommon : Named common := hstart.mono (List.subset_append_left _ _)
  have hdropped : Named dropped := hstart.mono (List.subset_append_right _ _)
  have hroot : wayFrom? false (.root :: (common ++ rest)) (.root :: (common ++ dropped)) =
      wayFrom? false (common ++ rest) (common ++ dropped) := by simp [wayFrom?]
  refine ⟨.root :: common, rest, dropped, htarget.mono (List.subset_append_right _ _), hpcomponents,
    hbcomponents, ?_, ?_⟩
  · rw [hbcomponents, ← List.cons_append, above_append _ hdropped, ← List.singleton_append,
      normalComponents_append _ hcommon]
    rfl
  · simp only [from?, hp.isAbsolute, hbase.isAbsolute, if_true, hpcomponents, hbcomponents, hroot, hway,
      Option.map_some]

/-- The way between absolute normal paths, and how it makes up the one from the other. -/
theorem Canonical.exists_from? (hp : p.Canonical) (hbase : base.Canonical) :
    ∃ names, Named names ∧ names ⊆ p.components ∧
    p.from? base = some (ofComponents (List.replicate (p.stepsUp base) .parent ++ names)) ∧
    p.components = above (p.stepsUp base) base.components ++ names := by
  obtain ⟨common, rest, dropped, hrest, hpcomponents, -, habove, hfrom⟩ := hp.exists_parting hbase
  have hsteps : p.stepsUp base = dropped.length := by
    have hnone : rest.count .parent = 0 := List.count_eq_zero.mpr fun hc => (hrest _ hc).2 rfl
    simp [stepsUp, hfrom, components_ofComponents (.relative (plain_steps dropped.length hrest)), hnone]
  rw [hsteps, habove]
  exact ⟨rest, hrest, fun c hc => by simp [hpcomponents, hc], hfrom, hpcomponents⟩

/-- A way goes on behind any path as it does behind its start. -/
theorem normalComponents_join_way (origin : Path) {way : Path} (hway : way.isAbsolute = false) {n : Nat}
    (hnames : Named names)
    (hcomponents : way.components.filter (· ≠ .current) = List.replicate n .parent ++ names) :
    normalComponents (origin.join way).components = above n origin.components ++ names := by
  have hpoints : (origin.components ++ way.components).filter (· ≠ .current) =
      (origin.components ++ (way.components.filter (· ≠ .current))).filter (· ≠ .current) := by
    rw [List.filter_append, List.filter_append, List.filter_filter]
    simp
  rw [normalComponents_join origin hway, ← normalComponents_filter, hpoints, normalComponents_filter, hcomponents,
    ← List.append_assoc, normalComponents_append _ hnames]
  rfl

/-! ## Ways as references -/

/-- A text that starts with two points starts with a point. -/
theorem head?_of_startsUpward {text : String} (h : startsUpward text = true) : text.toList.head? = some '.' := by
  unfold startsUpward at h
  cases htext : text.toList with
  | nil =>
    rw [htext] at h
    exact absurd h (by decide)
  | cons c cs =>
    rw [htext] at h
    have hc : '.' = c := by
      have hpoint : "..".toList = ['.', '.'] := by decide
      rw [hpoint, List.isPrefixOf_cons_cons, Bool.and_eq_true] at h
      exact eq_of_beq h.1
    rw [hc, List.head?_cons]

/-- A point and a slash in front of a way say nothing. -/
theorem filter_components_pointed (h : ∀ c ∈ cs, c.Plain) :
    (⟨"./" ++ (ofComponents cs).text⟩ : Path).components.filter (· ≠ .current) = cs := by
  have hrelative := isAbsolute_ofComponents h
  have hchars : (⟨"./" ++ (ofComponents cs).text⟩ : Path).chars = ((⟨"."⟩ : Path).join (ofComponents cs)).chars := by
    rw [chars_join hrelative (by decide) (by decide)]
    simp [chars]
  have hjoin : (⟨"./" ++ (ofComponents cs).text⟩ : Path).components =
      ((⟨"."⟩ : Path).join (ofComponents cs)).components := congrArg textComponents hchars
  rw [hjoin, filter_components_join _ hrelative, filter_components_ofComponents h]
  rfl

/-- A way that is written with a point at its start says what it did. -/
theorem components_reference (h : ∀ c ∈ cs, c.Plain) {reference : String}
    (hreference : reference = if startsUpward (ofComponents cs).text = true then (ofComponents cs).text
      else "./" ++ (ofComponents cs).text) :
    reference.toList.head? = some '.' ∧ (⟨reference⟩ : Path).components.filter (· ≠ .current) = cs := by
  rw [hreference]
  by_cases hup : startsUpward (ofComponents cs).text = true
  · rw [if_pos hup]
    exact ⟨head?_of_startsUpward hup, filter_components_ofComponents h⟩
  · rw [if_neg hup]
    exact ⟨by simp, filter_components_pointed h⟩

end Path

end CellGraph
