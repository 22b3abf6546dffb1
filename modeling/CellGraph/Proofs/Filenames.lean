import CellGraph.Proofs.Encodings

/-!
# File names

A file has a name as seen from the directory of a document, or from the base of its project. Followed from that
directory the name leads back to the file, but for the names on the way, which have been written in a text
(`Encoding.Lawful.exists_resolve_filename`).

If paths are texts, nothing of them is lost: the name leads to the file (`Roots.exists_resolve_filename`), so that no
two files have one name (`Roots.filename_injective`). A text is named alike in all lawful encodings
(`Encoding.Lawful.filename_path`), and references lead on alike (`Encoding.Lawful.resolve_path`).

A name starts with `./`, `../` or `/`, and with the last where the base is above the file, unless the first name on the
way down starts with two points itself: that is taken for a step up (`Roots.startsAsName_filename_iff`). This is said of
paths that are texts.
-/

namespace CellGraph

/-! ## Ways as texts -/

namespace Path

variable {p base origin : Path} {c : Component} {cs names : List Component}

theorem toList_ofComponents_cons (h : ∀ d ∈ c :: cs, d.Plain) : (ofComponents (c :: cs)).text.toList =
    c.text.toList ++ (cs.map (·.text.toList)).flatMap ('/' :: ·) := by
  have hchars := chars_ofComponents h
  rwa [List.map_cons, joinSlashes_cons] at hchars

/-- A way starts with two points if its first step does. -/
theorem startsUpward_ofComponents_cons (h : ∀ d ∈ c :: cs, d.Plain) :
    startsUpward (ofComponents (c :: cs)).text = startsUpward c.text := by
  have hpoints : "..".toList = ['.', '.'] := by decide
  have hc : c.Plain := h c List.mem_cons_self
  unfold startsUpward
  rw [toList_ofComponents_cons h, hpoints]
  cases htext : c.text.toList with
  | nil => exact absurd htext hc.text_ne_nil
  | cons first rest =>
    cases rest with
    | nil => cases cs <;> simp [List.isPrefixOf]
    | cons second rest => simp [List.isPrefixOf]

end Path

/-! ## Names lead back -/

namespace Roots

variable {roots : Roots} {p q : Path}

/-- Whether the directories of a build are absolute and normal. -/
structure Canonical (roots : Roots) : Prop where
  directory : roots.directory.Canonical
  base : roots.base.Canonical

/-- From an absolute working directory on, all directories are made absolute and normal. -/
theorem canonical_make {workingDirectory : Path} (h : workingDirectory.isAbsolute = true) (directory : Path)
    (project : Option Path) : (make workingDirectory directory project).Canonical := by
  have habsolute : ∀ p : Path, (p.absolute workingDirectory).Canonical := fun p =>
    Path.canonical_normalize_of_isAbsolute (Path.isAbsolute_join h p)
  constructor
  · simp only [make, habsolute directory]
  · cases project with
    | none => simp only [make, Option.map_none, Option.getD_none, habsolute directory]
    | some p => simp only [make, Option.map_some, Option.getD_some, habsolute p]

end Roots

namespace Encoding

/-- The directory that the name of a file is seen from. -/
def start (e : Encoding) (roots : Roots) (p : Path) : Anchor → Path
  | .directory => roots.directory
  | .base =>
    match p.from? roots.base with
    | some way => if startsUpward (e.slashed way) then roots.directory else roots.base
    | none => roots.directory

/-- Whether a path is another one but for the names on the way there from a directory, which have been written. -/
def Respells (e : Encoding) (directory p q : Path) : Prop :=
  ∃ n common names, Path.Named names ∧ p.from? directory = some (.ofComponents (List.replicate n .parent ++ names)) ∧
    p.components = common ++ names ∧ q.components = common ++ names.map e.respelled

/-- Whether the names on the way from a directory to a path are what some texts are. -/
def SpellsWay (e : Encoding) (directory p : Path) : Prop :=
  ∀ way, p.from? directory = some way → ∀ name, .normal name ∈ way.components → e.Spells (.normal name)

variable {e : Encoding} {roots : Roots} {directory p q : Path}

/-- A path is the one that it respells just if the names on the way are what some texts are. -/
theorem Respells.eq_iff (he : e.Lawful) (hp : p.Canonical) (hq : q.Canonical) (h : e.Respells directory p q) :
    q = p ↔ e.SpellsWay directory p := by
  obtain ⟨n, common, names, hnames, hfrom, hpcomponents, hqcomponents⟩ := h
  have hpath : q = p ↔ names.map e.respelled = names.map id := by
    rw [List.map_id]
    constructor
    · intro hqp
      rw [hqp, hpcomponents] at hqcomponents
      exact (List.append_cancel_left hqcomponents).symm
    · intro hrespelled
      rw [hq.eq_ofComponents, hqcomponents, hrespelled, ← hpcomponents, ← hp.eq_ofComponents]
  have hway := Path.components_ofComponents (.relative (Path.plain_steps n hnames))
  rw [hpath, List.map_inj_left]
  constructor
  · rintro hrespelled way hway' name hname
    rw [hfrom, Option.some.injEq] at hway'
    rw [← hway', hway, List.mem_append] at hname
    rcases hname with hname | hname
    · cases List.eq_of_mem_replicate hname
    · exact he.respelled_eq_iff.mp (hrespelled _ hname)
  · intro hspells c hc
    obtain ⟨name, rfl⟩ := Path.exists_name (hnames c hc)
    exact he.respelled_eq_iff.mpr (hspells _ hfrom name (by rw [hway]; exact List.mem_append_right _ hc))

/-- The way to a file, written as a reference, leads there again, but for the names on it, which have been written. -/
theorem Lawful.exists_way (he : e.Lawful) (hp : p.Canonical) (hwrites : e.Writes p) (hdirectory : directory.Canonical) :
    ∃ way, p.from? directory = some way ∧ ∀ reference, (reference = "./" ++ e.slashed way ∨ reference =
        if startsUpward (e.slashed way) = true then e.slashed way else "./" ++ e.slashed way) →
      reference.toList.head? = some '.' ∧ (directory.join (e.path reference)).normalize.Canonical ∧
        e.Respells directory p (directory.join (e.path reference)).normalize := by
  obtain ⟨names, hnames, hsubset, hfrom, hcomponents⟩ := hp.exists_from? hdirectory
  have hwritten : ∀ c ∈ names, (e.written c).Plain := fun c hc => hwrites c (hsubset hc) (hnames.plain c hc)
  have hrespelled : Path.Named (names.map e.respelled) := by
    intro c hc
    obtain ⟨d, hd, rfl⟩ := List.mem_map.mp hc
    obtain ⟨name, rfl⟩ := Path.exists_name (hnames d hd)
    exact ⟨he.component_plain (hwritten _ hd), by simp [respelled, written, component]⟩
  refine ⟨_, hfrom, fun reference hreference => ?_⟩
  obtain ⟨hhead, hrelative, hsteps⟩ := he.components_reference (p.stepsUp directory) hnames hwritten rfl hreference
  refine ⟨hhead, Path.canonical_normalize_of_isAbsolute (Path.isAbsolute_join hdirectory.isAbsolute _), _, _, names,
    hnames, hfrom, hcomponents, ?_⟩
  rw [Path.components_normalize, Path.normalComponents_join_way directory hrelative hrespelled hsteps]

/-- The name of a file as seen from the directory starts with a point, and leads from there to the file with its names
as they have been written. -/
theorem Lawful.exists_resolve_directoryName (he : e.Lawful) (h : roots.Canonical) (hp : p.Canonical)
    (hwrites : e.Writes p) : (e.directoryName roots p).toList.head? = some '.' ∧
      ∃ target, e.resolve (e.directoryName roots p) roots.directory (some roots.base) = .ok target ∧
        target.path.Canonical ∧ e.Respells roots.directory p target.path := by
  obtain ⟨way, hfrom, hway⟩ := he.exists_way hp hwrites h.directory
  obtain ⟨hhead, hrespells⟩ := hway (e.directoryName roots p) (Or.inr (by rw [directoryName, hfrom]))
  obtain ⟨rest, hrest⟩ := List.head?_eq_some_iff.mp hhead
  refine ⟨hhead, ⟨(roots.directory.join (e.path (e.directoryName roots p))).normalize, .directory⟩, ?_, hrespells⟩
  simp only [resolve, hrest]

/-- The name of a file, whatever its reference is relative to, leads to the file, but for the names on the way from
where it is seen, which have been written. -/
theorem Lawful.exists_resolve_filename (he : e.Lawful) (h : roots.Canonical) (hp : p.Canonical) (hwrites : e.Writes p)
    (anchor : Anchor) :
    ∃ target, e.resolve (e.filename roots p anchor) roots.directory (some roots.base) = .ok target ∧
      target.path.Canonical ∧ e.Respells (e.start roots p anchor) p target.path := by
  have hdirectory := (he.exists_resolve_directoryName h hp hwrites).2
  cases anchor with
  | directory => exact hdirectory
  | base =>
    obtain ⟨way, hfrom, hway⟩ := he.exists_way hp hwrites h.base
    rw [filename, start, hfrom]
    dsimp only
    split
    · exact hdirectory
    · have hslash : ("/" ++ e.slashed way).toList = '/' :: (e.slashed way).toList := by simp
      have hpoint : "." ++ ("/" ++ e.slashed way) = "./" ++ e.slashed way := (String.append_assoc ..).symm
      refine ⟨⟨(roots.base.join (e.path ("./" ++ e.slashed way))).normalize, .base⟩, ?_, (hway _ (Or.inl rfl)).2⟩
      simp only [resolve, hslash, Option.getD_some, hpoint]

end Encoding

/-! ## Paths of characters -/

namespace Encoding

theorem component_characters : characters.component = id := by
  funext c
  cases c <;> rfl

theorem written_characters : characters.written = id := by
  funext c
  cases c <;> rfl

theorem lawful_characters : characters.Lawful where
  text_parent := rfl
  text_path _ := rfl
  components_path text := by
    rw [component_characters, List.map_id]
    rfl

theorem writes_characters (p : Path) : characters.Writes p := by
  intro c _ hc
  rwa [written_characters]

/-- A way of characters is written as it is. -/
theorem slashed_characters {cs : List Component} (h : ∀ c ∈ cs, c.Plain) :
    characters.slashed (Path.ofComponents cs) = (Path.ofComponents cs).text := by
  have hslashed := lawful_characters.slashed_ofComponents h fun c hc => by rw [written_characters]; exact h c hc
  rwa [written_characters, List.map_id] at hslashed

end Encoding

/-! ## Paths that are texts -/

namespace Encoding

variable {e : Encoding} {roots : Roots} {p base : Path}

/-- A way between texts is written alike in all encodings. -/
theorem Lawful.exists_from?_path (he : e.Lawful) (hp : p.Canonical) (hbase : base.Canonical) : ∃ way way',
    p.from? base = some way ∧ (e.path p.text).from? (e.path base.text) = some way' ∧
      e.slashed way' = characters.slashed way := by
  obtain ⟨target, htarget, hpcomponents, -⟩ := hp.exists_names
  obtain ⟨start, hstart, hbcomponents, -⟩ := hbase.exists_names
  obtain ⟨common, rest, dropped, rfl, rfl, hsteps⟩ := Path.exists_wayFrom? target hstart
  have hplain := Path.plain_steps dropped.length (htarget.mono (List.subset_append_right common rest))
  generalize List.replicate dropped.length Component.parent ++ rest = cs at hsteps hplain
  have hway : Path.wayFrom? false p.components base.components = some cs := by
    rw [hpcomponents, hbcomponents, ← hsteps]
    simp [Path.wayFrom?]
  have hway' := he.wayFrom?_map false p.components base.components
  rw [hway, Option.map_some] at hway'
  have hpAbsolute : (e.path p.text).isAbsolute = true := (he.isAbsolute_path p.text).trans hp.isAbsolute
  have hbaseAbsolute : (e.path base.text).isAbsolute = true := (he.isAbsolute_path base.text).trans hbase.isAbsolute
  have hencoded : ∀ c ∈ cs.map e.component, c.Plain := by
    intro c hc
    obtain ⟨d, hd, rfl⟩ := List.mem_map.mp hc
    exact he.plain_component (hplain d hd)
  have hwritten : (cs.map e.component).map e.written = cs := by
    rw [List.map_map]
    exact (List.map_congr_left fun c _ => he.written_component c).trans (List.map_id cs)
  refine ⟨Path.ofComponents cs, Path.ofComponents (cs.map e.component), ?_, ?_, ?_⟩
  · simp only [Path.from?, hp.isAbsolute, hbase.isAbsolute, if_true, hway, Option.map_some]
  · simp only [Path.from?, hpAbsolute, hbaseAbsolute, if_true, he.components_path]
    exact congrArg (Option.map Path.ofComponents) hway'
  · rw [he.slashed_ofComponents hencoded (List.forall_mem_map.mpr fun c hc => ?_), hwritten, slashed_characters hplain]
    rw [he.written_component]
    exact hplain c hc

/-- Files of texts have the same names in all lawful encodings. -/
theorem Lawful.filename_path (he : e.Lawful) (h : roots.Canonical) (hp : p.Canonical) (anchor : Anchor) :
    e.filename ⟨e.path roots.directory.text, e.path roots.base.text⟩ (e.path p.text) anchor =
      roots.filename p anchor := by
  obtain ⟨way, way', hway, hway', hslashed⟩ := he.exists_from?_path hp h.directory
  have hdirectory : e.directoryName ⟨e.path roots.directory.text, e.path roots.base.text⟩ (e.path p.text) =
      characters.directoryName roots p := by
    simp only [directoryName, hway, hway', hslashed]
  cases anchor with
  | directory => exact hdirectory
  | base =>
    obtain ⟨way, way', hway, hway', hslashed⟩ := he.exists_from?_path hp h.base
    simp only [Roots.filename, filename, hway, hway', hslashed, hdirectory]

/-- A relative text goes on alike in all lawful encodings. -/
theorem Lawful.components_join (he : e.Lawful) (origin : Path) {reference : String}
    (h : (⟨reference⟩ : Path).isAbsolute = false) :
    ((e.path origin.text).join (e.path reference)).normalize.components =
      (origin.join ⟨reference⟩).normalize.components.map e.component := by
  have hpath : (e.path reference).isAbsolute = false := (he.isAbsolute_path reference).trans h
  rw [Path.components_normalize, Path.components_normalize, Path.normalComponents_join _ hpath,
    Path.normalComponents_join _ h, he.components_path, he.components_path, ← List.map_append, normalComponents_map]

/-- A reference leads to the same file in all lawful encodings. -/
theorem Lawful.resolve_path (he : e.Lawful) (reference : String) (origin : Path) (base : Option Path) :
    (e.resolve reference (e.path origin.text) (base.map fun b => e.path b.text)).map
        (fun target => (target.path.components, target.anchor)) =
      (CellGraph.resolve reference origin base).map
        fun target => (target.path.components.map e.component, target.anchor) := by
  have hstart : (base.map fun b => e.path b.text).getD (e.path origin.text) = e.path (base.getD origin).text := by
    cases base <;> rfl
  have hrelative : ∀ text : String, text.toList.head? = some '.' → (⟨text⟩ : Path).isAbsolute = false := by
    intro text htext
    simp [Path.isAbsolute, Path.chars, htext]
  unfold CellGraph.resolve resolve
  split
  · rename_i rest hslash
    have hpoint := hrelative ("." ++ reference) (by simp [String.toList_append])
    rw [hstart]
    exact congrArg (fun components => Except.ok (components, Anchor.base)) (he.components_join _ hpoint)
  · rename_i rest hpoint
    exact congrArg (fun components => Except.ok (components, Anchor.directory))
      (he.components_join _ (hrelative reference (by rw [hpoint, List.head?_cons])))
  · rfl

end Encoding

namespace Roots

variable {roots : Roots} {p q : Path}

/-- A file name leads back to its file, whatever its reference is relative to. -/
theorem exists_resolve_filename (h : roots.Canonical) (hp : p.Canonical) (anchor : Anchor) :
    ∃ target, roots.resolve (roots.filename p anchor) roots.directory = .ok target ∧ target.path = p := by
  obtain ⟨target, htarget, hcanonical, hrespells⟩ :=
    Encoding.lawful_characters.exists_resolve_filename h hp (Encoding.writes_characters p) anchor
  exact ⟨target, htarget, (hrespells.eq_iff Encoding.lawful_characters hp hcanonical).mpr fun _ _ name _ => ⟨name, rfl⟩⟩

/-- No two files have one name. -/
theorem filename_injective (h : roots.Canonical) (hp : p.Canonical) (hq : q.Canonical) {a b : Anchor}
    (hname : roots.filename p a = roots.filename q b) : p = q := by
  obtain ⟨target, htarget, hpath⟩ := exists_resolve_filename h hp a
  obtain ⟨target', htarget', hpath'⟩ := exists_resolve_filename h hq b
  rw [hname, htarget'] at htarget
  cases htarget
  exact hpath.symm.trans hpath'

end Roots

/-! ## The form of names -/

/-- Whether a text starts as file names do: beside, above, or at the base. -/
def startsAsName (text : String) : Bool := ["./", "../", "/"].any fun start => start.toList.isPrefixOf text.toList

namespace Path

variable {p base : Path} {c : Component} {cs rest : List Component}

/-- Whether a path lies below a directory. -/
def Below (p directory : Path) : Prop := ∃ c rest, p.components = directory.components ++ c :: rest

/-- Whether a path lies below a directory, by a first name that starts with two points. -/
def BelowDots (p directory : Path) : Prop :=
  ∃ c rest, p.components = directory.components ++ c :: rest ∧ startsUpward c.text = true

theorem BelowDots.below (h : p.BelowDots base) : p.Below base := by
  obtain ⟨c, rest, hp, -⟩ := h
  exact ⟨c, rest, hp⟩

theorem belowDots_iff (hp : p.components = base.components ++ c :: rest) :
    p.BelowDots base ↔ startsUpward c.text = true := by
  constructor
  · rintro ⟨d, rest', hd, hup⟩
    rw [hp] at hd
    rw [(List.cons.inj (List.append_cancel_left hd)).1]
    exact hup
  · intro hup
    exact ⟨c, rest, hp, hup⟩

theorem wayFrom?_append (names : List Component) : wayFrom? false (names ++ cs) names = some cs := by
  induction names with
  | nil => cases cs <;> rfl
  | cons c names ih => simpa [wayFrom?] using ih

/-- The way to a path below a directory goes down. -/
theorem Canonical.from?_of_below (hp : p.Canonical) (hbase : base.Canonical)
    (h : p.components = base.components ++ cs) :
    p.from? base = some (ofComponents cs) ∧ Named cs := by
  obtain ⟨target, htarget, hpcomponents, -⟩ := hp.exists_names
  obtain ⟨start, -, hbcomponents, -⟩ := hbase.exists_names
  have hnames : target = start ++ cs := by
    rw [hpcomponents, hbcomponents] at h
    exact (List.cons.inj h).2
  constructor
  · simp only [from?, hp.isAbsolute, hbase.isAbsolute, if_true, h, wayFrom?_append, Option.map_some]
  · rw [hnames] at htarget
    exact htarget.mono (List.subset_append_right _ _)

/-- The way to a path that is neither below a directory nor above it goes up, and then somewhere. -/
theorem Canonical.exists_from?_of_not_below (hp : p.Canonical) (hbase : base.Canonical) (hbelow : ¬ p.Below base)
    (habove : ¬ p.components <+: base.components) :
    ∃ c cs, (∀ d ∈ .parent :: c :: cs, d.Plain) ∧ p.from? base = some (ofComponents (.parent :: c :: cs)) := by
  obtain ⟨common, rest, dropped, hrest, hpcomponents, hbcomponents, -, hfrom⟩ := hp.exists_parting hbase
  have hplain := plain_steps dropped.length hrest
  cases rest with
  | nil =>
    rw [List.append_nil] at hpcomponents
    exact absurd ⟨dropped, by rw [hpcomponents, hbcomponents]⟩ habove
  | cons name rest =>
    cases dropped with
    | nil =>
      rw [List.append_nil] at hbcomponents
      exact absurd ⟨name, rest, by rw [hpcomponents, hbcomponents]⟩ hbelow
    | cons up dropped =>
      rw [List.length_cons, List.replicate_succ, List.cons_append] at hplain hfrom
      cases dropped with
      | nil => exact ⟨name, rest, hplain, hfrom⟩
      | cons next dropped =>
        rw [List.length_cons, List.replicate_succ, List.cons_append] at hplain hfrom
        exact ⟨.parent, _, hplain, hfrom⟩

/-- A name that starts with two points is no step up, and no way to one. -/
theorem startsAsName_eq_false (h : ∀ d ∈ c :: cs, d.Plain) (hc : c ≠ .parent) (hup : startsUpward c.text = true) :
    startsAsName (ofComponents (c :: cs)).text = false := by
  have hplain : c.Plain := h c List.mem_cons_self
  have hpoints : "..".toList = ['.', '.'] := by decide
  unfold startsUpward at hup
  rw [hpoints, List.isPrefixOf_iff_prefix] at hup
  obtain ⟨rest, hrest⟩ := hup
  have hslash := hplain.1
  have hcomponent := hplain.2
  unfold startsAsName
  rw [toList_ofComponents_cons h]
  rw [← hrest] at hslash hcomponent ⊢
  cases rest with
  | nil => exact absurd (Option.some.inj hcomponent).symm hc
  | cons third rest =>
    have hthird : third ≠ '/' := fun e => hslash (by simp [e])
    simp [List.isPrefixOf, Ne.symm hthird]

end Path

namespace Roots

variable {roots : Roots} {p : Path}

/-- A name as seen from a directory starts with a point or two and a slash, unless the file is below it by a name that
starts with two points. -/
theorem startsAsName_directoryName_iff (h : roots.Canonical) (hp : p.Canonical)
    (habove : ¬ p.components <+: roots.directory.components) :
    startsAsName (Encoding.characters.directoryName roots p) = true ↔ ¬ p.BelowDots roots.directory := by
  by_cases hbelow : p.Below roots.directory
  · obtain ⟨c, rest, hcomponents⟩ := hbelow
    obtain ⟨hfrom, hnamed⟩ := hp.from?_of_below h.directory hcomponents
    have hc := hnamed c List.mem_cons_self
    rw [Path.belowDots_iff hcomponents, Encoding.directoryName, hfrom]
    dsimp only
    rw [Encoding.slashed_characters hnamed.plain, Path.startsUpward_ofComponents_cons hnamed.plain]
    by_cases hup : startsUpward c.text = true
    · rw [if_pos hup, Path.startsAsName_eq_false hnamed.plain hc.2 hup]
      simp [hup]
    · rw [if_neg hup]
      simp [startsAsName, List.isPrefixOf, hup]
  · obtain ⟨c, cs, hplain, hfrom⟩ := hp.exists_from?_of_not_below h.directory hbelow habove
    have hup : startsUpward Component.parent.text = true := by decide
    have hdots : ¬ p.BelowDots roots.directory := fun hdots => hbelow hdots.below
    rw [Encoding.directoryName, hfrom]
    dsimp only
    rw [Encoding.slashed_characters hplain, Path.startsUpward_ofComponents_cons hplain, if_pos hup]
    simp [startsAsName, Path.toList_ofComponents_cons hplain, Component.text, hdots, List.isPrefixOf]

/-- Seen from the base, a file below it has a name with a slash in front, unless the first name on the way starts with
two points. In all other cases the name is that as seen from the directory. -/
theorem filename_base_eq (h : roots.Canonical) (hp : p.Canonical) (habove : ¬ p.components <+: roots.base.components) :
    (p.Below roots.base ∧ ¬ p.BelowDots roots.base ∧ ∃ way, roots.filename p .base = "/" ++ way) ∨
      (¬ (p.Below roots.base ∧ ¬ p.BelowDots roots.base) ∧
        roots.filename p .base = Encoding.characters.directoryName roots p) := by
  by_cases hbelow : p.Below roots.base
  · obtain ⟨c, rest, hcomponents⟩ := id hbelow
    obtain ⟨hfrom, hnamed⟩ := hp.from?_of_below h.base hcomponents
    rw [Path.belowDots_iff hcomponents, filename, Encoding.filename, hfrom]
    dsimp only
    rw [Encoding.slashed_characters hnamed.plain, Path.startsUpward_ofComponents_cons hnamed.plain]
    by_cases hup : startsUpward c.text = true
    · right
      simp [hup]
    · left
      rw [if_neg hup]
      exact ⟨hbelow, hup, _, rfl⟩
  · obtain ⟨c, cs, hplain, hfrom⟩ := hp.exists_from?_of_not_below h.base hbelow habove
    have hup : startsUpward Component.parent.text = true := by decide
    right
    refine ⟨fun hnot => hbelow hnot.1, ?_⟩
    rw [filename, Encoding.filename, hfrom]
    dsimp only
    rw [Encoding.slashed_characters hplain, Path.startsUpward_ofComponents_cons hplain, if_pos hup]

/-- The name of a file that is neither a directory of the build nor above one starts with `./`, `../` or `/`, and with a
slash if it is seen from a base above it, just if no name that starts with two points comes first on the way down. -/
theorem startsAsName_filename_iff (h : roots.Canonical) (hp : p.Canonical)
    (hdirectory : ¬ p.components <+: roots.directory.components) (hbase : ¬ p.components <+: roots.base.components) :
    (startsAsName (roots.filename p .directory) = true ↔ ¬ p.BelowDots roots.directory) ∧
    (startsAsName (roots.filename p .base) = true ↔
      (p.Below roots.base ∧ ¬ p.BelowDots roots.base) ∨ ¬ p.BelowDots roots.directory) ∧
    (p.Below roots.base → ((roots.filename p .base).toList.head? = some '/' ↔ ¬ p.BelowDots roots.base)) := by
  have hname := startsAsName_directoryName_iff h hp hdirectory
  refine ⟨hname, ?_⟩
  rcases filename_base_eq h hp hbase with ⟨hbelow, hdots, way, hway⟩ | ⟨hnot, heq⟩
  · rw [hway]
    constructor
    · simp [startsAsName, List.isPrefixOf, hbelow, hdots]
    · simp [hdots]
  · obtain ⟨hhead, -⟩ :=
      Encoding.lawful_characters.exists_resolve_directoryName h hp (Encoding.writes_characters p)
    rw [heq, hname, hhead]
    constructor
    · simp only [hnot, false_or]
    · intro hbelow
      have hdots : p.BelowDots roots.base := by
        by_contra hdots
        exact hnot ⟨hbelow, hdots⟩
      simp [hdots]

end Roots

namespace DottedName

/-- A document in the directory of its project. -/
def roots : Roots := ⟨⟨"/site"⟩, ⟨"/site"⟩⟩

/-- A file in a directory whose name starts with two points. -/
def file : Path := ⟨"/site/..data/a.csv"⟩

/-- The name of such a file starts neither with a point and a slash nor with two points and a slash, and with no slash
as seen from the base. -/
theorem not_startsAsName : roots.Canonical ∧ file.Canonical ∧ file.Below roots.base ∧
    ¬ file.components <+: roots.directory.components ∧ ¬ file.components <+: roots.base.components ∧
    ¬ startsAsName (roots.filename file .directory) = true ∧ ¬ startsAsName (roots.filename file .base) = true ∧
    ¬ (roots.filename file .base).toList.head? = some '/' := by
  have hdirectory : (⟨"/site"⟩ : Path).Canonical := ⟨by decide, by decide +kernel⟩
  have hroots : roots.Canonical := ⟨hdirectory, hdirectory⟩
  have hfile : file.Canonical := ⟨by decide, by decide +kernel⟩
  have hcomponents : file.components = roots.base.components ++ .normal "..data" :: [.normal "a.csv"] := by
    decide +kernel
  have habove : ¬ file.components <+: roots.base.components := by decide +kernel
  have hbelow : file.Below roots.base := ⟨_, _, hcomponents⟩
  have hdots : file.BelowDots roots.base := ⟨_, _, hcomponents, by decide⟩
  obtain ⟨hplain, hbase, hslash⟩ := Roots.startsAsName_filename_iff hroots hfile habove habove
  refine ⟨hroots, hfile, hbelow, habove, habove, ?_, ?_, ?_⟩
  · rw [hplain]
    exact fun h => h hdots
  · rw [hbase]
    exact fun h => h.elim (fun h => h.2 hdots) fun h => h hdots
  · rw [hslash hbelow]
    exact fun h => h hdots

end DottedName

end CellGraph
