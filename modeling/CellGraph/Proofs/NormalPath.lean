import CellGraph.Reference

/-!
# Normal paths are what their components say

A path that has been written from components in order reads back as these components (`Path.components_ofComponents`),
provided that they can be written (`Writable`): the root stands first or not at all, and no name is empty, a point, two
points or broken by a slash. Normal forms can be written (`Path.writable_normalComponents`). So two normal paths with
the same components are the same text (`Path.normalize_eq_of_same`), and wherever a reference leads is such a path
(`exists_normalize_of_resolve`). Its last segment is its file name (`Path.getLast?_splitSlashes`).
-/

namespace CellGraph

/-! ## Segments between slashes -/

theorem splitSlashes_slash (text : List Char) : splitSlashes ('/' :: text) = [] :: splitSlashes text := by
  simp [splitSlashes]

/-- A segment in front of a slash is the first one. -/
theorem splitSlashes_append_slash {segment : List Char} (h : '/' ∉ segment) (text : List Char) :
    splitSlashes (segment ++ '/' :: text) = segment :: splitSlashes text := by
  induction segment with
  | nil => exact splitSlashes_slash text
  | cons c cs ih =>
    have hc : c ≠ '/' := fun e => h (by simp [e])
    have hcs : '/' ∉ cs := fun e => h (List.mem_cons_of_mem _ e)
    simp [splitSlashes, hc, ih hcs]

theorem splitSlashes_of_not_mem {segment : List Char} (h : '/' ∉ segment) : splitSlashes segment = [segment] := by
  induction segment with
  | nil => rfl
  | cons c cs ih =>
    have hc : c ≠ '/' := fun e => h (by simp [e])
    have hcs : '/' ∉ cs := fun e => h (List.mem_cons_of_mem _ e)
    simp [splitSlashes, hc, ih hcs]

/-- No segment has a slash in it. -/
theorem not_mem_of_mem_splitSlashes : ∀ {text segment : List Char}, segment ∈ splitSlashes text → '/' ∉ segment
  | [], segment, h => by
    have : segment = [] := by simpa [splitSlashes] using h
    simp [this]
  | c :: cs, segment, h => by
    unfold splitSlashes at h
    split at h
    · rcases List.mem_cons.mp h with rfl | h
      · simp
      · exact not_mem_of_mem_splitSlashes h
    · rename_i hc
      cases hs : splitSlashes cs with
      | nil => exact absurd hs (splitSlashes_ne_nil cs)
      | cons first rest =>
        rw [hs] at h
        have hrest : ∀ s ∈ first :: rest, s ∈ splitSlashes cs := fun s hmem => hs ▸ hmem
        rcases List.mem_cons.mp h with rfl | h
        · have hfirst : '/' ∉ first := not_mem_of_mem_splitSlashes (hrest first List.mem_cons_self)
          simpa [Ne.symm hc] using hfirst
        · exact not_mem_of_mem_splitSlashes (hrest segment (List.mem_cons_of_mem _ h))

/-- Segments that are joined can be told apart again. -/
theorem splitSlashes_joinSlashes : ∀ {segments : List (List Char)}, segments ≠ [] →
    (∀ segment ∈ segments, '/' ∉ segment) → splitSlashes (joinSlashes segments) = segments
  | [], h, _ => absurd rfl h
  | [segment], _, h => splitSlashes_of_not_mem (h segment (by simp))
  | first :: second :: rest, _, h => by
    rw [joinSlashes, splitSlashes_append_slash (h first (by simp)),
      splitSlashes_joinSlashes (by simp) fun segment hs => h segment (List.mem_cons_of_mem _ hs)]
    simp

/-- Joined segments, each but the first behind a slash. -/
theorem joinSlashes_cons (segment : List Char) (segments : List (List Char)) :
    joinSlashes (segment :: segments) = segment ++ segments.flatMap ('/' :: ·) := by
  induction segments generalizing segment with
  | nil => simp [joinSlashes]
  | cons next rest ih => simp [joinSlashes, ih]

theorem mem_joinSlashes_of_mem {c : Char} {segment : List Char} {segments : List (List Char)} (hs : segment ∈ segments)
    (hc : c ∈ segment) : c ∈ joinSlashes segments := by
  cases segments with
  | nil => cases hs
  | cons first rest =>
    rw [joinSlashes_cons]
    rcases List.mem_cons.mp hs with rfl | hs
    · exact List.mem_append_left _ hc
    · exact List.mem_append_right _ (List.mem_flatMap.mpr ⟨segment, hs, List.mem_cons_of_mem _ hc⟩)

/-- A segment that is neither empty nor a point or two is a name. -/
theorem segmentComponent?_eq_normal_iff {segment : List Char} :
    segmentComponent? segment = some (.normal (.ofList segment)) ↔
      segment ≠ [] ∧ segment ≠ ['.'] ∧ segment ≠ ['.', '.'] := by
  unfold segmentComponent?
  split <;> simp_all

/-- What the first segment of a text contributes to its components. -/
def firstComponents : List Char → List Component
  | [] => [.root]
  | ['.'] => [.current]
  | segment => (segmentComponent? segment).toList

theorem firstComponents_of_ne {segment : List Char} (hempty : segment ≠ []) (hcurrent : segment ≠ ['.']) :
    firstComponents segment = (segmentComponent? segment).toList := by
  unfold firstComponents
  split
  · exact absurd rfl hempty
  · exact absurd rfl hcurrent
  · rfl

/-- The components of a text are those of its segments, and the first one counts even if it is empty or a point. -/
theorem textComponents_of_splitSlashes {text first : List Char} {rest : List (List Char)} (hne : text ≠ [])
    (h : splitSlashes text = first :: rest) :
    textComponents text = firstComponents first ++ rest.filterMap segmentComponent? := by
  rw [textComponents, h]
  rcases first with _ | ⟨c, _ | ⟨d, cs⟩⟩
  · cases rest with
    | nil =>
      have htext := joinSlashes_splitSlashes text
      rw [h] at htext
      exact absurd htext.symm hne
    | cons second rest => rfl
  · by_cases hc : c = '.'
    · subst hc
      rfl
    · have hname : segmentComponent? [c] = some (.normal (.ofList [c])) :=
        segmentComponent?_eq_normal_iff.mpr ⟨by simp, by simp [hc], by simp⟩
      simp [firstComponents, hc, hname]
  · simp only [firstComponents, List.filterMap_cons (a := c :: d :: cs)]
    cases segmentComponent? (c :: d :: cs) <;> rfl

/-! ## Components that can be written -/

namespace Component

/-- A step up, or a name that reads back as a name. -/
def Plain (c : Component) : Prop := '/' ∉ c.text.toList ∧ segmentComponent? c.text.toList = some c

/-- A component that a segment is can be written as that segment. -/
theorem plain_of_segmentComponent? {segment : List Char} {c : Component} (hs : '/' ∉ segment)
    (h : segmentComponent? segment = some c) : c.Plain ∧ c.text.toList = segment := by
  have htext : c.text.toList = segment := by
    unfold segmentComponent? at h
    split at h
    · cases h
    · cases h
    · cases h; rfl
    · cases h; exact String.toList_ofList
  exact ⟨⟨htext ▸ hs, htext ▸ h⟩, htext⟩

theorem Plain.text_ne_nil {c : Component} (h : c.Plain) : c.text.toList ≠ [] := by
  intro e
  have := h.2
  rw [e] at this
  cases this

theorem Plain.ne_current {c : Component} (h : c.Plain) : c ≠ .current := by
  rintro rfl
  cases h.2

theorem Plain.ne_root {c : Component} (h : c.Plain) : c ≠ .root := by
  rintro rfl
  exact h.1 (by simp [text])

end Component

/-- Components that a path can have: plain ones, perhaps behind the root. -/
inductive Writable : List Component → Prop
  | relative {cs : List Component} : (∀ c ∈ cs, c.Plain) → Writable cs
  | absolute {cs : List Component} : (∀ c ∈ cs, c.Plain) → Writable (.root :: cs)

theorem Writable.append {cs : List Component} (h : Writable cs) {c : Component} (hc : c.Plain) :
    Writable (cs ++ [c]) := by
  have hplain : ∀ {cs : List Component}, (∀ d ∈ cs, d.Plain) → ∀ d ∈ cs ++ [c], d.Plain := by
    intro cs hcs d hd
    rcases List.mem_append.mp hd with hd | hd
    · exact hcs d hd
    · exact List.mem_singleton.mp hd ▸ hc
  cases h with
  | relative h => exact .relative (hplain h)
  | absolute h => exact .absolute (hplain h)

namespace Path

variable {c : Component} {cs : List Component}

theorem isAbsolute_of_plain (h : c.Plain) : (⟨c.text⟩ : Path).isAbsolute = false := by
  unfold isAbsolute chars
  cases htext : c.text.toList with
  | nil => rfl
  | cons first rest =>
    have hfirst : first ≠ '/' := fun e => h.1 (by simp [htext, e])
    simpa using hfirst

theorem chars_join_of_slash {p q : Path} (hq : q.isAbsolute = false)
    (hp : p.chars = [] ∨ p.chars.getLast? = some '/') : (p.join q).chars = p.chars ++ q.chars := by
  have hp' : (decide (p.chars = []) || p.chars.getLast? == some '/') = true := by simpa using hp
  simp only [join, hq, hp', if_true, Bool.false_eq_true, if_false]
  simp [chars]

theorem chars_join {p q : Path} (hq : q.isAbsolute = false) (hp : p.chars ≠ [])
    (hlast : p.chars.getLast? ≠ some '/') : (p.join q).chars = p.chars ++ '/' :: q.chars := by
  have hp' : (decide (p.chars = []) || p.chars.getLast? == some '/') = false := by simp [hp, hlast]
  simp only [join, hq, hp', Bool.false_eq_true, if_false]
  simp [chars]

/-- A plain component does not end in a slash, so neither does a path that it ends. -/
theorem getLast?_append_plain (h : c.Plain) (cs : List Char) : (cs ++ c.text.toList).getLast? ≠ some '/' := by
  obtain ⟨last, hlast⟩ := Option.isSome_iff_exists.mp (by simpa using h.text_ne_nil : c.text.toList.getLast?.isSome)
  rw [List.getLast?_append, hlast]
  intro e
  have he : last = '/' := by simpa using e
  exact h.1 (he ▸ List.mem_of_getLast? hlast)

/-- Writing plain components behind a path that ends in none of them. -/
theorem chars_foldl_join (hcs : ∀ c ∈ cs, c.Plain) : ∀ {p : Path}, p.chars ≠ [] → p.chars.getLast? ≠ some '/' →
    (cs.foldl (fun p c => p.join ⟨c.text⟩) p).chars = p.chars ++ (cs.map (·.text.toList)).flatMap ('/' :: ·) := by
  induction cs with
  | nil => intro p _ _; simp
  | cons c cs ih =>
    intro p hp hlast
    have hc : c.Plain := hcs c List.mem_cons_self
    have hjoin : (p.join ⟨c.text⟩).chars = p.chars ++ '/' :: c.text.toList :=
      chars_join (isAbsolute_of_plain hc) hp hlast
    have hne : (p.join ⟨c.text⟩).chars ≠ [] := by rw [hjoin]; simp [hp]
    have hslash : (p.join ⟨c.text⟩).chars.getLast? ≠ some '/' := by
      rw [hjoin, List.append_cons]
      exact getLast?_append_plain hc _
    rw [List.foldl_cons, ih (fun c h => hcs c (List.mem_cons_of_mem _ h)) hne hslash, hjoin]
    simp

/-- The first plain component goes right behind nothing, or behind the slash of the root. -/
theorem chars_foldl_join_of_slash (hcs : ∀ c ∈ cs, c.Plain) {p : Path}
    (hp : p.chars = [] ∨ p.chars.getLast? = some '/') :
    (cs.foldl (fun p c => p.join ⟨c.text⟩) p).chars = p.chars ++ joinSlashes (cs.map (·.text.toList)) := by
  cases cs with
  | nil => simp [joinSlashes]
  | cons c cs =>
    have hc : c.Plain := hcs c List.mem_cons_self
    have hjoin : (p.join ⟨c.text⟩).chars = p.chars ++ c.text.toList :=
      chars_join_of_slash (isAbsolute_of_plain hc) hp
    have hne : (p.join ⟨c.text⟩).chars ≠ [] := by rw [hjoin]; simp [hc.text_ne_nil]
    have hslash : (p.join ⟨c.text⟩).chars.getLast? ≠ some '/' := by
      rw [hjoin]
      exact getLast?_append_plain hc _
    rw [List.foldl_cons, chars_foldl_join (fun c h => hcs c (List.mem_cons_of_mem _ h)) hne hslash, hjoin,
      List.map_cons, joinSlashes_cons]
    simp

theorem chars_ofComponents (h : ∀ c ∈ cs, c.Plain) :
    (ofComponents cs).chars = joinSlashes (cs.map (·.text.toList)) := by
  have := chars_foldl_join_of_slash h (p := ⟨""⟩) (Or.inl (by simp [chars]))
  simpa [ofComponents, chars] using this

theorem chars_ofComponents_root (h : ∀ c ∈ cs, c.Plain) :
    (ofComponents (.root :: cs)).chars = '/' :: joinSlashes (cs.map (·.text.toList)) := by
  have hroot : (⟨""⟩ : Path).join ⟨Component.root.text⟩ = ⟨"/"⟩ := by decide
  have := chars_foldl_join_of_slash h (p := ⟨"/"⟩) (Or.inr (by simp [chars]))
  rw [ofComponents, List.foldl_cons, hroot, this]
  simp [chars]

/-! ## Reading back what was written -/

theorem filterMap_segmentComponent? (h : ∀ c ∈ cs, c.Plain) :
    (cs.map (·.text.toList)).filterMap segmentComponent? = cs := by
  induction cs with
  | nil => rfl
  | cons c cs ih =>
    rw [List.map_cons, List.filterMap_cons, (h c List.mem_cons_self).2,
      ih fun c hc => h c (List.mem_cons_of_mem _ hc)]

theorem splitSlashes_of_plain (h : ∀ c ∈ cs, c.Plain) (hne : cs ≠ []) :
    splitSlashes (joinSlashes (cs.map (·.text.toList))) = cs.map (·.text.toList) := by
  refine splitSlashes_joinSlashes (by simpa using hne) fun segment hs => ?_
  obtain ⟨c, hc, rfl⟩ := List.mem_map.mp hs
  exact (h c hc).1

theorem textComponents_of_plain (h : ∀ c ∈ cs, c.Plain) :
    textComponents (joinSlashes (cs.map (·.text.toList))) = cs := by
  cases cs with
  | nil => rfl
  | cons c cs =>
    have hc : c.Plain := h c List.mem_cons_self
    unfold textComponents
    rw [splitSlashes_of_plain h (by simp)]
    -- the first segment is neither empty nor a point, so all of them are read alike
    have hnil := hc.text_ne_nil
    have hpoint : c.text.toList ≠ ['.'] := fun e => by have := hc.2; rw [e] at this; cases this
    split
    · simp_all
    · simp_all
    · simp_all
    · simp_all
    · exact filterMap_segmentComponent? h

theorem textComponents_root_of_plain (h : ∀ c ∈ cs, c.Plain) :
    textComponents ('/' :: joinSlashes (cs.map (·.text.toList))) = .root :: cs := by
  cases cs with
  | nil => rfl
  | cons c cs =>
    unfold textComponents
    rw [splitSlashes_slash, splitSlashes_of_plain h (by simp)]
    simpa using filterMap_segmentComponent? h

/-- A path that was written from components has these components. -/
theorem components_ofComponents (h : Writable cs) : (ofComponents cs).components = cs := by
  cases h with
  | relative h => rw [components, chars_ofComponents h, textComponents_of_plain h]
  | absolute h => rw [components, chars_ofComponents_root h, textComponents_root_of_plain h]

/-! ## Normal forms can be written -/

/-- Whatever a path is made of is plain, but for the root or a point at its start. -/
theorem components_cases (p : Path) : ∃ cs, (∀ c ∈ cs, c.Plain) ∧
    (p.components = cs ∨ p.components = .root :: cs ∨ p.components = .current :: cs) := by
  have hplain : ∀ segments : List (List Char), (∀ segment ∈ segments, '/' ∉ segment) →
      ∀ c ∈ segments.filterMap segmentComponent?, c.Plain := by
    intro segments hs c hc
    obtain ⟨segment, hmem, hsegment⟩ := List.mem_filterMap.mp hc
    exact (Component.plain_of_segmentComponent? (hs segment hmem) hsegment).1
  have hslash := fun segment (h : segment ∈ splitSlashes p.chars) => not_mem_of_mem_splitSlashes h
  unfold components textComponents
  split
  · exact ⟨[], by simp, Or.inl rfl⟩
  · exact ⟨[], by simp, Or.inl rfl⟩
  · rename_i segments _ h
    rw [h] at hslash
    exact ⟨_, hplain segments fun s hs => hslash s (List.mem_cons_of_mem _ hs), Or.inr (Or.inl rfl)⟩
  · rename_i segments h
    rw [h] at hslash
    exact ⟨_, hplain segments fun s hs => hslash s (List.mem_cons_of_mem _ hs), Or.inr (Or.inr rfl)⟩
  · exact ⟨_, hplain _ hslash, Or.inl rfl⟩

/-- Plain components that come last first, perhaps on top of the root. -/
inductive Stacked : List Component → Prop
  | empty : Stacked []
  | root : Stacked [.root]
  | cons {c : Component} {done : List Component} : c.Plain → Stacked done → Stacked (c :: done)

theorem Stacked.push {done : List Component} (h : Stacked done) {c : Component} (hc : c.Plain) :
    Stacked (pushComponent done c) := by
  cases c with
  | root => exact absurd rfl hc.ne_root
  | current => exact absurd rfl hc.ne_current
  | normal name => exact .cons hc h
  | parent =>
    cases h with
    | empty => exact .cons hc .empty
    | root => exact .root
    | @cons top rest htop hrest =>
      cases top with
      | root => exact absurd rfl htop.ne_root
      | current => exact absurd rfl htop.ne_current
      | normal name => exact hrest
      | parent => exact .cons hc (.cons htop hrest)

theorem Stacked.foldl {done : List Component} (h : Stacked done) (hcs : ∀ c ∈ cs, c.Plain) :
    Stacked (cs.foldl pushComponent done) := by
  induction cs generalizing done with
  | nil => exact h
  | cons c cs ih => exact ih (h.push (hcs c List.mem_cons_self)) fun c hc => hcs c (List.mem_cons_of_mem _ hc)

theorem Stacked.writable_reverse {done : List Component} (h : Stacked done) : Writable done.reverse := by
  induction h with
  | empty => exact .relative (by simp)
  | root => exact .absolute (by simp)
  | @cons c done hc _ ih =>
    rw [List.reverse_cons]
    exact ih.append hc

/-- The normal form of a path can be written. -/
theorem writable_normalComponents (p : Path) : Writable (normalComponents p.components) := by
  obtain ⟨cs, hcs, h | h | h⟩ := p.components_cases
  · rw [h]
    exact (Stacked.empty.foldl hcs).writable_reverse
  · rw [h]
    exact (Stacked.root.foldl hcs).writable_reverse
  · rw [h]
    exact (Stacked.empty.foldl hcs).writable_reverse

@[simp] theorem components_normalize (p : Path) : p.normalize.components = normalComponents p.components :=
  components_ofComponents p.writable_normalComponents

/-- Normal paths are the same only if they are equal. -/
theorem normalize_eq_of_same {p q : Path} (h : p.normalize.same q.normalize = true) : p.normalize = q.normalize := by
  rw [same_iff, components_normalize, components_normalize] at h
  unfold normalize
  rw [h]

/-! ## File names -/

/-- No segment is cut off a path whose last one is a component. -/
theorem cutSegments_eq_splitSlashes {p : Path} {segment : List Char}
    (hlast : (splitSlashes p.chars).getLast? = some segment) (hsegment : (segmentComponent? segment).isSome = true) :
    p.cutSegments = splitSlashes p.chars := by
  unfold cutSegments
  split
  · rename_i hnil
    exact absurd hnil (splitSlashes_ne_nil _)
  · rename_i hempty
    rw [hempty] at hlast
    cases hlast
    cases hsegment
  · rename_i first segments _ hsplit
    rw [hsplit]
    cases hreverse : segments.reverse with
    | nil => rw [List.reverse_eq_nil_iff.mp hreverse]; rfl
    | cons last rest =>
      obtain rfl : segments = rest.reverse ++ [last] := by
        rw [← List.reverse_reverse segments, hreverse, List.reverse_cons]
      rw [hsplit, ← List.cons_append, List.getLast?_concat] at hlast
      cases hlast
      rw [List.dropWhile_cons_of_neg (by simpa [Option.isSome_iff_ne_none] using hsegment), List.reverse_cons]

/-- The last segment of a normal path is its file name. -/
theorem getLast?_splitSlashes {p : Path} {name : String} (h : p.normalize.fileName? = some name) :
    (splitSlashes p.normalize.chars).getLast? = some name.toList ∧ (segmentComponent? name.toList).isSome = true := by
  have hlast : (normalComponents p.components).getLast? = some (.normal name) := by
    unfold fileName? at h
    rw [components_normalize] at h
    split at h
    · rename_i hlast
      cases h
      exact hlast
    · cases h
  have hwritable := p.writable_normalComponents
  unfold Path.normalize
  generalize normalComponents p.components = cs at hlast hwritable
  have hplain : ∀ {cs : List Component}, (∀ c ∈ cs, c.Plain) → cs.getLast? = some (.normal name) →
      (splitSlashes (joinSlashes (cs.map (·.text.toList)))).getLast? = some name.toList ∧
        (segmentComponent? name.toList).isSome = true := by
    intro cs hcs hlast
    have hne : cs ≠ [] := by
      rintro rfl
      cases hlast
    have hname := (hcs _ (List.mem_of_getLast? hlast)).2
    refine ⟨?_, Option.isSome_iff_exists.mpr ⟨_, hname⟩⟩
    rw [splitSlashes_of_plain hcs hne, List.getLast?_map, hlast]
    rfl
  cases hwritable with
  | relative hcs =>
    rw [chars_ofComponents hcs]
    exact hplain hcs hlast
  | @absolute cs hcs =>
    have hne : cs ≠ [] := by
      rintro rfl
      cases hlast
    rw [chars_ofComponents_root hcs, splitSlashes_slash, List.getLast?_cons_of_ne_nil (splitSlashes_ne_nil _)]
    rw [List.getLast?_cons_of_ne_nil hne] at hlast
    exact hplain hcs hlast

theorem length_joinSlashes_append (segments : List (List Char)) (a b : List Char) :
    (joinSlashes (segments ++ [a])).length + b.length = (joinSlashes (segments ++ [b])).length + a.length := by
  cases segments with
  | nil => simp [joinSlashes, Nat.add_comm]
  | cons first rest =>
    rw [List.cons_append, List.cons_append, joinSlashes_cons, joinSlashes_cons]
    simp only [List.flatMap_append, List.flatMap_singleton, List.length_append, List.length_cons]
    omega

theorem length_le_splitName (name : List Char) :
    name.length ≤ (splitName name).1.length + ((splitName name).2.getD []).length + 1 := by
  unfold splitName
  dsimp only
  split
  · exact Nat.le_succ_of_le (Nat.le_add_right _ _)
  · simp only [List.length_reverse, List.length_drop, Option.getD_some]
    omega

/-- Another extension changes the last segment alone, and keeps the stem of the file name. -/
theorem exists_withExtension {p : Path} {name : String} (h : p.fileName? = some name) (extension : String) :
    ∃ named, p.withExtension extension = ofChars (joinSlashes (p.cutSegments.dropLast ++ [named])) ∧
      (splitName name.toList).1.length ≤ named.length := by
  simp only [withExtension, h]
  refine ⟨_, rfl, ?_⟩
  split
  · rename_i hpoint
    rw [hpoint.1]
    decide
  · split
    · exact Nat.le_refl _
    · rw [List.length_append]
      exact Nat.le_add_right _ _

theorem toList_extension {p : Path} {name : String} (h : p.fileName? = some name) :
    p.extension.toList = (splitName name.toList).2.getD [] := by
  unfold Path.extension extension?
  rw [h, Option.bind_some]
  cases (splitName name.toList).2 <;> simp

/-- Another extension makes a normal path shorter by no more than its own one. -/
theorem length_chars_le (p : Path) (extension : String) : p.normalize.chars.length ≤
    (p.normalize.withExtension extension).chars.length + p.normalize.extension.toList.length + 1 := by
  cases hname : p.normalize.fileName? with
  | none =>
    simp only [withExtension, hname]
    exact Nat.le_succ_of_le (Nat.le_add_right _ _)
  | some name =>
    obtain ⟨hlast, hsegment⟩ := getLast?_splitSlashes hname
    have hchars : p.normalize.chars = joinSlashes (p.normalize.cutSegments.dropLast ++ [name.toList]) := by
      obtain ⟨front, hfront⟩ := List.getLast?_eq_some_iff.mp hlast
      rw [cutSegments_eq_splitSlashes hlast hsegment, hfront, List.dropLast_concat, ← hfront, joinSlashes_splitSlashes]
    obtain ⟨named, hnamed, hstem⟩ := exists_withExtension hname extension
    have hsplit := length_le_splitName name.toList
    have hlength := length_joinSlashes_append p.normalize.cutSegments.dropLast name.toList named
    rw [← hchars] at hlength
    have hofChars : ∀ cs : List Char, (ofChars cs).chars = cs := fun cs => String.toList_ofList
    rw [hnamed, hofChars, toList_extension hname]
    omega

end Path

/-- Wherever a reference leads is a normal path. -/
theorem exists_normalize_of_resolve {roots : Roots} {reference : String} {origin : Path} {target : Target}
    (h : roots.resolve reference origin = .ok target) : ∃ p : Path, target.path = p.normalize := by
  unfold Roots.resolve resolve Encoding.resolve at h
  split at h
  · cases h; exact ⟨_, rfl⟩
  · cases h; exact ⟨_, rfl⟩
  · cases h

end CellGraph
