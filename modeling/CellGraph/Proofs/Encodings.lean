import CellGraph.Proofs.Way

/-!
# Texts in paths

In a lawful encoding the path of a text has the components of the text, its names encoded, and an encoded name reads as
it was (`Encoding.Lawful`). So a way that is written with slashes between its steps, and read again, takes the same
steps up, and goes down by what its names are once they have been written (`Encoding.Lawful.components_reference`). A
name is written for itself just if it is what some text is (`Encoding.Lawful.respelled_eq_iff`).
-/

namespace CellGraph

theorem intercalate_eq_joinSlashes (segments : List (List Char)) :
    ['/'].intercalate segments = joinSlashes segments := by
  induction segments with
  | nil => rfl
  | cons first rest ih =>
    cases rest with
    | nil => simp [joinSlashes]
    | cons second rest => simpa [joinSlashes] using ih

namespace Encoding

/-- A component of a text as a component of the path that the text is. -/
def component (e : Encoding) : Component → Component
  | .normal name => .normal (e.path name).text
  | c => c

/-- A component of a path as a component of the text that it reads as. -/
def written (e : Encoding) : Component → Component
  | .normal name => .normal (e.text (.normal name))
  | c => c

/-- What a component is once it has been written in a text. -/
def respelled (e : Encoding) (c : Component) : Component := e.component (e.written c)

/-- Whether a component is what some text is. -/
def Spells (e : Encoding) (c : Component) : Prop := ∃ text, c.text = (e.path text).text

/-- Whether the names of a path can be written in texts. -/
def Writes (e : Encoding) (p : Path) : Prop := ∀ c ∈ p.components, c.Plain → (e.written c).Plain

/-- The encodings in which nothing of a text is lost. -/
structure Lawful (e : Encoding) : Prop where
  text_parent : e.text .parent = ".."
  text_path : ∀ text, e.text (.normal (e.path text).text) = text
  components_path : ∀ text, (e.path text).components = (⟨text⟩ : Path).components.map e.component

variable {e : Encoding} {p : Path} {c : Component} {cs names : List Component}

theorem component_eq_iff {d : Component} (hd : ∀ name, d ≠ .normal name) : e.component c = d ↔ c = d := by
  cases c <;> simp [component, Ne.symm (hd _)]

/-- Points are left out of the components of a text and of those of its path alike. -/
theorem filter_map_component (cs : List Component) :
    (cs.map e.component).filter (· ≠ .current) = (cs.filter (· ≠ .current)).map e.component := by
  rw [List.filter_map]
  refine congrArg _ (List.filter_congr fun c _ => ?_)
  simp [component_eq_iff (e := e) (c := c) (d := .current) (by simp)]

/-- A way is written with slashes between its steps. -/
theorem Lawful.slashed_ofComponents (he : e.Lawful) (h : ∀ c ∈ cs, c.Plain) (hwritten : ∀ c ∈ cs, (e.written c).Plain) :
    e.slashed (Path.ofComponents cs) = (Path.ofComponents (cs.map e.written)).text := by
  have hroot : cs.filter (· != .root) = cs := List.filter_eq_self.mpr fun c hc => bne_iff_ne.mpr (h c hc).ne_root
  have htext : ∀ c ∈ cs, e.text c = (e.written c).text := by
    intro c hc
    cases c with
    | root => exact absurd rfl (h _ hc).ne_root
    | current => exact absurd rfl (h _ hc).ne_current
    | parent => exact he.text_parent
    | normal name => rfl
  apply String.ext
  rw [slashed, Path.components_ofComponents (.relative h), hroot, List.map_congr_left htext, String.toList_intercalate,
    List.map_map]
  refine (intercalate_eq_joinSlashes _).trans ?_
  rw [← Path.chars, Path.chars_ofComponents (List.forall_mem_map.mpr hwritten), List.map_map]
  rfl

/-- A name of a text is a name of its path. -/
theorem Lawful.component_plain (he : e.Lawful) {name : String} (h : (Component.normal name).Plain) :
    (e.component (.normal name)).Plain := by
  have hname : (⟨name⟩ : Path).components = [.normal name] := by
    have hchars : (⟨name⟩ : Path).chars = joinSlashes ([Component.normal name].map (·.text.toList)) := rfl
    rw [Path.components, hchars, Path.textComponents_of_plain (by simpa using h)]
  have hpath : (e.path name).components = [e.component (.normal name)] := by
    rw [he.components_path, hname, List.map_singleton]
  obtain ⟨cs, hcs, hcomponents⟩ := (e.path name).components_cases
  rw [hpath] at hcomponents
  rcases hcomponents with rfl | hroot | hcurrent
  · exact hcs _ List.mem_cons_self
  · cases hroot
  · cases hcurrent

/-- A name is written for itself just if it is what some text is. -/
theorem Lawful.respelled_eq_iff (he : e.Lawful) {name : String} :
    e.respelled (.normal name) = .normal name ↔ e.Spells (.normal name) := by
  constructor
  · intro h
    exact ⟨e.text (.normal name), (Component.normal.inj h).symm⟩
  · rintro ⟨text, htext⟩
    have hname : name = (e.path text).text := htext
    rw [hname, respelled, written, he.text_path, component]

theorem Lawful.isAbsolute_path (he : e.Lawful) (text : String) :
    (e.path text).isAbsolute = (⟨text⟩ : Path).isAbsolute := by
  rw [Bool.eq_iff_iff, Path.isAbsolute_iff, Path.isAbsolute_iff, he.components_path, filter_map_component, List.mem_map]
  constructor
  · rintro ⟨c, hc, hroot⟩
    exact (component_eq_iff (by simp)).mp hroot ▸ hc
  · intro h
    exact ⟨_, h, rfl⟩

/-- A relative text, apart from points, leads by the steps and names of its path. -/
theorem Lawful.filter_components_path (he : e.Lawful) {text : String} (h : ∀ c ∈ cs, c.Plain)
    (hcs : (⟨text⟩ : Path).components.filter (· ≠ .current) = cs) :
    (e.path text).isAbsolute = false ∧ (e.path text).components.filter (· ≠ .current) = cs.map e.component := by
  constructor
  · rw [he.isAbsolute_path, ← Bool.not_eq_true, Path.isAbsolute_iff, hcs]
    exact fun hroot => (h _ hroot).ne_root rfl
  · rw [he.components_path, filter_map_component, hcs]

/-- A way that is written with a point at its start takes the same steps up when it is read, and goes down by what its
names are once they have been written. -/
theorem Lawful.components_reference (he : e.Lawful) (n : Nat) (h : Path.Named names)
    (hwritten : ∀ c ∈ names, (e.written c).Plain) {way : Path} {reference : String}
    (hway : way = Path.ofComponents (List.replicate n .parent ++ names))
    (hreference : reference = "./" ++ e.slashed way ∨ reference =
      if startsUpward (e.slashed way) = true then e.slashed way else "./" ++ e.slashed way) :
    reference.toList.head? = some '.' ∧ (e.path reference).isAbsolute = false ∧
      (e.path reference).components.filter (· ≠ .current) = List.replicate n .parent ++ names.map e.respelled := by
  have hsteps : (List.replicate n Component.parent ++ names).map e.written =
      List.replicate n Component.parent ++ names.map e.written := by simp [written]
  have hplain : ∀ c ∈ (List.replicate n Component.parent ++ names).map e.written, c.Plain := by
    intro c hc
    rw [hsteps] at hc
    rcases List.mem_append.mp hc with hc | hc
    · exact List.eq_of_mem_replicate hc ▸ Path.plain_parent
    · obtain ⟨name, hname, rfl⟩ := List.mem_map.mp hc
      exact hwritten name hname
  have hslashed := he.slashed_ofComponents (Path.plain_steps n h) (List.forall_mem_map.mp hplain)
  rw [← hway] at hslashed
  rw [hslashed] at hreference
  obtain ⟨hhead, hcomponents⟩ : reference.toList.head? = some '.' ∧
      (⟨reference⟩ : Path).components.filter (· ≠ .current) =
        (List.replicate n Component.parent ++ names).map e.written := by
    rcases hreference with rfl | hreference
    · exact ⟨by simp, Path.filter_components_pointed hplain⟩
    · exact Path.components_reference hplain hreference
  obtain ⟨hrelative, hfilter⟩ := he.filter_components_path hplain hcomponents
  refine ⟨hhead, hrelative, ?_⟩
  rw [hfilter, hsteps, List.map_append, List.map_replicate, List.map_map]
  rfl

/-! ## Components of texts -/

theorem Lawful.component_inj (he : e.Lawful) {c d : Component} : e.component c = e.component d ↔ c = d := by
  refine ⟨fun h => ?_, congrArg e.component⟩
  cases d with
  | normal name =>
    cases c with
    | normal other =>
      have htext : (e.path other).text = (e.path name).text := Component.normal.inj h
      rw [← he.text_path other, htext, he.text_path name]
    | root => cases h
    | current => cases h
    | parent => cases h
  | root => exact (component_eq_iff (by simp)).mp h
  | current => exact (component_eq_iff (by simp)).mp h
  | parent => exact (component_eq_iff (by simp)).mp h

theorem component_eq_current_iff {c : Component} : e.component c = .current ↔ c = .current := component_eq_iff (by simp)

theorem component_eq_parent_iff {c : Component} : e.component c = .parent ↔ c = .parent := component_eq_iff (by simp)

/-- The way between encoded components is that between the components, encoded. -/
theorem Lawful.wayFrom?_map (he : e.Lawful) (moved : Bool) (target base : List Component) :
    Path.wayFrom? moved (target.map e.component) (base.map e.component) =
      (Path.wayFrom? moved target base).map (·.map e.component) := by
  induction base generalizing target moved with
  | nil => cases target <;> rfl
  | cons b base ih =>
    cases target with
    | nil => simp [Path.wayFrom?, component, Function.comp_def]
    | cons t target =>
      simp only [Path.wayFrom?, List.map_cons, he.component_inj, component_eq_current_iff, component_eq_parent_iff, ih,
        Path.upAndDown]
      split
      · rfl
      · split
        · simp [Option.map_map, Function.comp_def]
        · split
          · rfl
          · simp [component, Function.comp_def]

/-- Steps up cancel names alike, encoded or not. -/
theorem normalComponents_map (cs : List Component) :
    Path.normalComponents (cs.map e.component) = (Path.normalComponents cs).map e.component := by
  have hpush : ∀ (done : List Component) (c : Component), Path.pushComponent (done.map e.component) (e.component c) =
      (Path.pushComponent done c).map e.component := by
    intro done c
    cases c with
    | parent =>
      cases done with
      | nil => rfl
      | cons d done => cases d <;> rfl
    | root => rfl
    | current => rfl
    | normal name => rfl
  have hfold : ∀ done, (cs.map e.component).foldl Path.pushComponent (done.map e.component) =
      (cs.foldl Path.pushComponent done).map e.component := by
    induction cs with
    | nil => exact fun _ => rfl
    | cons c cs ih =>
      intro done
      rw [List.map_cons, List.foldl_cons, List.foldl_cons, hpush, ih]
  rw [Path.normalComponents, Path.normalComponents, List.map_reverse, ← hfold []]
  rfl


/-- A component that is encoded reads as it was. -/
theorem Lawful.written_component (he : e.Lawful) (c : Component) : e.written (e.component c) = c := by
  cases c with
  | normal name => exact congrArg Component.normal (he.text_path name)
  | root => rfl
  | current => rfl
  | parent => rfl

theorem Lawful.plain_component (he : e.Lawful) {c : Component} (h : c.Plain) : (e.component c).Plain := by
  cases c with
  | normal name => exact he.component_plain h
  | root => exact absurd rfl h.ne_root
  | current => exact absurd rfl h.ne_current
  | parent => exact h

end Encoding

end CellGraph
