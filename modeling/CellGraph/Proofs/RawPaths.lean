import CellGraph.Proofs.Filenames
import CellGraph.Proofs.Utf8

/-!
# Names of files whose paths are bytes

A text is encoded character by character: slashes and points are bytes of their own, and no other character has one of
them among its bytes. So `Encoding.bytes` is lawful (`Encoding.lawful_bytes`), and whatever the bytes of a name are,
what they read as is a name (`Encoding.writes_bytes`).

The name of a file always leads somewhere. It leads to the file just if the names on the way there are texts, and files
with such ways have different names (`RawPath.resolve_filename_of_make`). Names that are no texts are written with
replacement characters, so two files can have one name, which leads to a third (`IllegibleName.not_leading_back`).
-/

namespace CellGraph

/-! ## Marks of bytes -/

namespace Text

theorem toNat_ofNat_byte (b : UInt8) : (Char.ofNat b.toNat).toNat = b.toNat := by
  have hb := b.toNat_lt
  exact toNat_ofNat_of_valid (Or.inl (by omega))

@[simp] theorem unmarked_marks (bytes : Bytes) : unmarked (marks bytes) = bytes := by
  rw [unmarked, marks, List.map_map]
  have hbyte : ((fun c : Char => UInt8.ofNat c.toNat) ∘ fun b : UInt8 => Char.ofNat b.toNat) = id := by
    funext b
    simp [toNat_ofNat_byte]
  rw [hbyte, List.map_id]

/-- Some of the marks of bytes are marks of bytes. -/
theorem marks_unmarked {bytes : Bytes} {cs : List Char} (h : cs ⊆ marks bytes) : marks (unmarked cs) = cs := by
  rw [unmarked, marks, List.map_map]
  refine (List.map_congr_left fun c hc => ?_).trans (List.map_id cs)
  obtain ⟨b, -, rfl⟩ := List.mem_map.mp (h hc)
  simp [toNat_ofNat_byte]

/-- The marks of a character of a text. -/
def spelled (c : Char) : List Char := marks (String.utf8EncodeChar c)

theorem marks_encode (text : String) : marks (encode text) = text.toList.flatMap spelled := by
  rw [marks, encode, List.map_flatMap]
  rfl

/-- A character of ASCII is its own mark. Others have marks beyond ASCII. -/
theorem spelled_cases (c : Char) :
    c.toNat < 0x80 ∧ spelled c = [c] ∨ 0x80 ≤ c.toNat ∧ spelled c ≠ [] ∧ ∀ m ∈ spelled c, 0x80 ≤ m.toNat := by
  rcases utf8EncodeChar_cases c with ⟨hascii, hbytes⟩ | ⟨hwide, hne, hbytes⟩
  · refine Or.inl ⟨hascii, ?_⟩
    rw [spelled, hbytes, marks, List.map_singleton, toNat_ofNat_of_lt (by omega), Char.ofNat_toNat]
  · refine Or.inr ⟨hwide, by simp [spelled, marks, hne], fun m hm => ?_⟩
    obtain ⟨b, hb, rfl⟩ := List.mem_map.mp hm
    rw [toNat_ofNat_byte]
    exact hbytes b hb

theorem eq_of_mem_spelled {c m : Char} (hm : m ∈ spelled c) (h : m.toNat < 0x80) : m = c := by
  rcases spelled_cases c with ⟨-, hc⟩ | ⟨-, -, hmarks⟩
  · exact List.mem_singleton.mp (hc ▸ hm)
  · exact absurd (hmarks m hm) (Nat.not_le.mpr h)

theorem flatMap_spelled_of_ascii {cs : List Char} (h : ∀ c ∈ cs, c.toNat < 0x80) : cs.flatMap spelled = cs := by
  have hspelled : ∀ c ∈ cs, spelled c = [c] := by
    intro c hc
    rcases spelled_cases c with ⟨-, hsame⟩ | ⟨hwide, -⟩
    · exact hsame
    · exact absurd (h c hc) (Nat.not_lt.mpr hwide)
  rw [List.flatMap_congr hspelled, List.flatMap_singleton']

/-- Marks of ASCII are those of their own characters only. -/
theorem flatMap_spelled_eq_iff {cs marks : List Char} (h : ∀ m ∈ marks, m.toNat < 0x80) :
    cs.flatMap spelled = marks ↔ cs = marks := by
  constructor
  · intro hmarks
    have hascii : ∀ c ∈ cs, c.toNat < 0x80 := by
      intro c hc
      rcases spelled_cases c with ⟨hascii, -⟩ | ⟨-, hne, hwide⟩
      · exact hascii
      · obtain ⟨m, hm⟩ := List.exists_mem_of_ne_nil _ hne
        exact absurd (h m (hmarks ▸ List.mem_flatMap.mpr ⟨c, hc, hm⟩)) (Nat.not_lt.mpr (hwide m hm))
    rw [← hmarks, flatMap_spelled_of_ascii hascii]
  · rintro rfl
    exact flatMap_spelled_of_ascii h

theorem slash_not_mem_flatMap_spelled {cs : List Char} (h : '/' ∉ cs) : '/' ∉ cs.flatMap spelled := by
  intro hslash
  obtain ⟨c, hc, hmem⟩ := List.mem_flatMap.mp hslash
  exact h (eq_of_mem_spelled hmem (by decide) ▸ hc)

end Text

/-! ## Components of encoded texts -/

open Text (spelled)

theorem flatMap_joinSlashes (segments : List (List Char)) :
    (joinSlashes segments).flatMap spelled = joinSlashes (segments.map (·.flatMap spelled)) := by
  have hslash : spelled '/' = ['/'] := by decide
  cases segments with
  | nil => rfl
  | cons first segments =>
    rw [List.map_cons, joinSlashes_cons, joinSlashes_cons, List.flatMap_append, List.flatMap_assoc, List.flatMap_map]
    refine congrArg _ (List.flatMap_congr fun segment _ => ?_)
    rw [List.flatMap_cons, hslash, List.singleton_append]

/-- The segments of an encoded text are those of the text, encoded. -/
theorem splitSlashes_flatMap (text : List Char) :
    splitSlashes (text.flatMap spelled) = (splitSlashes text).map (·.flatMap spelled) := by
  have hslash : ∀ segment ∈ (splitSlashes text).map (·.flatMap spelled), '/' ∉ segment := by
    intro segment hs
    obtain ⟨s, hmem, rfl⟩ := List.mem_map.mp hs
    exact Text.slash_not_mem_flatMap_spelled (not_mem_of_mem_splitSlashes hmem)
  calc splitSlashes (text.flatMap spelled)
      = splitSlashes ((joinSlashes (splitSlashes text)).flatMap spelled) := by rw [joinSlashes_splitSlashes]
    _ = splitSlashes (joinSlashes ((splitSlashes text).map (·.flatMap spelled))) := by rw [flatMap_joinSlashes]
    _ = (splitSlashes text).map (·.flatMap spelled) :=
      splitSlashes_joinSlashes (by simpa using splitSlashes_ne_nil text) hslash

namespace Encoding

theorem component_bytes_normal (name : String) :
    bytes.component (.normal name) = .normal (.ofList (name.toList.flatMap spelled)) :=
  congrArg (Component.normal ∘ String.ofList) (Text.marks_encode name)

/-- The component that an encoded segment is. -/
theorem segmentComponent?_flatMap (segment : List Char) :
    segmentComponent? (segment.flatMap spelled) = (segmentComponent? segment).map bytes.component := by
  have hnil := @Text.flatMap_spelled_eq_iff segment [] (by simp)
  have hpoint := @Text.flatMap_spelled_eq_iff segment ['.'] (by simp)
  have hpoints := @Text.flatMap_spelled_eq_iff segment ['.', '.'] (by simp)
  by_cases hname : segment ≠ [] ∧ segment ≠ ['.'] ∧ segment ≠ ['.', '.']
  · obtain ⟨hne, hne₁, hne₂⟩ := hname
    have hspelled : segmentComponent? (segment.flatMap spelled) = some (.normal (.ofList (segment.flatMap spelled))) :=
      segmentComponent?_eq_normal_iff.mpr ⟨mt hnil.mp hne, mt hpoint.mp hne₁, mt hpoints.mp hne₂⟩
    rw [segmentComponent?_eq_normal_iff.mpr ⟨hne, hne₁, hne₂⟩, hspelled, Option.map_some,
      component_bytes_normal, String.toList_ofList]
  · have hcases : segment = [] ∨ segment = ['.'] ∨ segment = ['.', '.'] := by
      by_contra hnot
      simp only [not_or] at hnot
      exact hname hnot
    rcases hcases with rfl | rfl | rfl
    · rfl
    · rw [hpoint.mpr rfl]
      rfl
    · rw [hpoints.mpr rfl]
      rfl

theorem filterMap_segmentComponent?_flatMap (segments : List (List Char)) :
    (segments.map (·.flatMap spelled)).filterMap segmentComponent? =
      (segments.filterMap segmentComponent?).map bytes.component := by
  rw [List.filterMap_map, List.map_filterMap]
  exact List.filterMap_congr fun segment _ => segmentComponent?_flatMap segment

theorem firstComponents_flatMap (segment : List Char) :
    firstComponents (segment.flatMap spelled) = (firstComponents segment).map bytes.component := by
  have hnil := @Text.flatMap_spelled_eq_iff segment [] (by simp)
  have hpoint := @Text.flatMap_spelled_eq_iff segment ['.'] (by simp)
  by_cases hempty : segment = []
  · rw [hempty]
    rfl
  · by_cases hcurrent : segment = ['.']
    · rw [hpoint.mpr hcurrent, hcurrent]
      rfl
    · rw [firstComponents_of_ne hempty hcurrent, firstComponents_of_ne (mt hnil.mp hempty) (mt hpoint.mp hcurrent),
        segmentComponent?_flatMap]
      cases segmentComponent? segment <;> rfl

/-- The components of an encoded text are those of the text, encoded. -/
theorem textComponents_flatMap (text : List Char) :
    textComponents (text.flatMap spelled) = (textComponents text).map bytes.component := by
  by_cases hempty : text = []
  · rw [hempty]
    rfl
  · have hspelled : text.flatMap spelled ≠ [] := mt (Text.flatMap_spelled_eq_iff (by simp)).mp hempty
    cases hs : splitSlashes text with
    | nil => exact absurd hs (splitSlashes_ne_nil text)
    | cons first segments =>
      have hsegments : splitSlashes (text.flatMap spelled) =
          first.flatMap spelled :: segments.map (·.flatMap spelled) := by
        rw [splitSlashes_flatMap, hs, List.map_cons]
      rw [textComponents_of_splitSlashes hspelled hsegments, textComponents_of_splitSlashes hempty hs, List.map_append,
        firstComponents_flatMap, filterMap_segmentComponent?_flatMap]

/-! ## Lawfulness -/

/-- The encoding by bytes loses nothing of a text. -/
theorem lawful_bytes : bytes.Lawful where
  text_parent := by decide +kernel
  text_path text := by
    have hbytes : Text.unmarked (bytes.path text).text.toList = Text.encode text := by
      simp [bytes, RawPath.marks, RawPath.ofText, Path.ofChars]
    exact (congrArg Text.decodeLossy hbytes).trans (Text.decodeLossy_encode text)
  components_path text := by
    have hchars : (bytes.path text).chars = (⟨text⟩ : Path).chars.flatMap spelled := by
      simp [bytes, RawPath.marks, RawPath.ofText, Path.ofChars, Path.chars, Text.marks_encode]
    rw [Path.components, hchars, textComponents_flatMap]
    rfl

end Encoding

/-! ## Names of bytes -/

/-- The characters of a name in a path are among those of the path. -/
theorem Path.subset_chars {p : Path} {c : Component} (hc : c ∈ p.components) (hplain : c.Plain) :
    c.text.toList ⊆ p.chars := by
  have hfilter : c ∈ p.components.filter (· ≠ .current) := List.mem_filter.mpr ⟨hc, by simp [hplain.ne_current]⟩
  rw [Path.components, filter_textComponents, List.mem_append] at hfilter
  rcases hfilter with hroot | hsegment
  · have hc : c = .root := by
      split at hroot
      · exact List.mem_singleton.mp hroot
      · cases hroot
    exact absurd hc hplain.ne_root
  · obtain ⟨segment, hmem, hcomponent⟩ := List.mem_filterMap.mp hsegment
    rw [(Component.plain_of_segmentComponent? (not_mem_of_mem_splitSlashes hmem) hcomponent).2]
    exact fun m hm => joinSlashes_splitSlashes p.chars ▸ mem_joinSlashes_of_mem hmem hm

/-- What the bytes of a name read as is a name. -/
theorem Text.plain_decodeLossy {bytes : Text.Bytes} {name : String} (hbytes : name.toList = Text.marks bytes)
    (h : (Component.normal name).Plain) : (Component.normal (Text.decodeLossy bytes)).Plain := by
  obtain ⟨hslash, hname⟩ := h
  have hnormal : segmentComponent? name.toList = some (.normal (.ofList name.toList)) := by
    rw [String.ofList_toList]
    exact hname
  obtain ⟨hne, hne₁, hne₂⟩ := segmentComponent?_eq_normal_iff.mp hnormal
  have hascii : ∀ {cs : List Char}, (∀ c ∈ cs, 0 < c.toNat ∧ c.toNat < 0x80) → name.toList ≠ cs →
      (Text.decodeLossy bytes).toList ≠ cs := by
    intro cs hcs hne hread
    refine hne ?_
    rw [hbytes, ← Text.toList_decodeLossy_of_ascii (hread ▸ hcs), hread]
  constructor
  · intro hread
    have hmark := Text.mem_of_mem_decodeLossy (by decide) (by decide) hread
    exact hslash (hbytes ▸ hmark)
  · have hread := segmentComponent?_eq_normal_iff.mpr
      ⟨hascii (by simp) hne, hascii (by simp) hne₁, hascii (by simp) hne₂⟩
    rw [String.ofList_toList] at hread
    exact hread

namespace RawPath

@[simp] theorem ofMarks_marks (p : RawPath) : ofMarks p.marks = p := by
  simp [ofMarks, marks, Path.ofChars, Path.chars]

theorem marks_injective {p q : RawPath} (h : p.marks = q.marks) : p = q := by
  rw [← ofMarks_marks p, h, ofMarks_marks]

end RawPath

namespace Encoding

/-- Whatever bytes the names of a path are, they can be written in texts. -/
theorem writes_bytes (p : RawPath) : bytes.Writes p.marks := by
  intro c hc hplain
  cases c with
  | root => exact absurd rfl hplain.ne_root
  | current => exact absurd rfl hplain.ne_current
  | parent => exact hplain
  | normal name =>
    have hsubset : name.toList ⊆ Text.marks p.bytes := by
      have hchars := Path.subset_chars hc hplain
      rwa [RawPath.marks, Path.chars, Path.ofChars, String.toList_ofList] at hchars
    exact Text.plain_decodeLossy (Text.marks_unmarked hsubset).symm hplain

end Encoding

/-! ## Names of files -/

namespace RawPath

/-- Whether the names on the way to a file, from where its name is seen, are texts. -/
def Legible (roots : Roots) (p : RawPath) (anchor : Anchor) : Prop :=
  Encoding.bytes.SpellsWay (Encoding.bytes.start roots p.marks anchor) p.marks

/-- The name of a file leads somewhere from the directory of its build, and to the file just if the names on the way are
texts. Files with such ways have different names, whatever these are relative to. -/
theorem resolve_filename_of_make {workingDirectory : RawPath} (h : workingDirectory.marks.isAbsolute = true)
    (directory : RawPath) (project : Option RawPath) {roots : Roots}
    (hroots : roots = .make workingDirectory.marks directory.marks (project.map marks)) :
    roots.Canonical ∧
    (∀ (p : RawPath) (anchor : Anchor), p.marks.Canonical → ∃ target,
      Encoding.bytes.resolve (Encoding.bytes.filename roots p.marks anchor) roots.directory (some roots.base) =
        .ok target ∧ (target.path = p.marks ↔ p.Legible roots anchor)) ∧
    (∀ (p q : RawPath) (a b : Anchor), p.marks.Canonical → q.marks.Canonical → p.Legible roots a →
      q.Legible roots b →
      Encoding.bytes.filename roots p.marks a = Encoding.bytes.filename roots q.marks b → p = q) := by
  have hcanonical : roots.Canonical := hroots ▸ Roots.canonical_make h directory.marks (project.map marks)
  have hresolve : ∀ (p : RawPath) (anchor : Anchor), p.marks.Canonical → ∃ target,
      Encoding.bytes.resolve (Encoding.bytes.filename roots p.marks anchor) roots.directory (some roots.base) =
        .ok target ∧ (target.path = p.marks ↔ p.Legible roots anchor) := by
    intro p anchor hp
    obtain ⟨target, htarget, hcanonical', hrespells⟩ :=
      Encoding.lawful_bytes.exists_resolve_filename hcanonical hp (Encoding.writes_bytes p) anchor
    exact ⟨target, htarget, hrespells.eq_iff Encoding.lawful_bytes hp hcanonical'⟩
  refine ⟨hcanonical, hresolve, fun p q a b hp hq hpLegible hqLegible hname => ?_⟩
  obtain ⟨target, htarget, hpath⟩ := hresolve p a hp
  obtain ⟨target', htarget', hpath'⟩ := hresolve q b hq
  rw [hname, htarget', Except.ok.injEq] at htarget
  refine marks_injective ?_
  rw [← hpath.mpr hpLegible, ← hpath'.mpr hqLegible, htarget]

end RawPath

namespace IllegibleName

/-- A directory whose name is no text. -/
def workingDirectory : RawPath := ⟨Text.encode "/w" ++ [0xFF]⟩

/-- The directories of a document below it. -/
def roots : Roots := .make workingDirectory.marks (RawPath.ofText "doc").marks none

/-- A file beside the document. -/
def file (name : Text.Bytes) : RawPath := ⟨workingDirectory.bytes ++ Text.encode "/doc/" ++ name⟩

theorem isAbsolute_workingDirectory : workingDirectory.marks.isAbsolute = true := by decide +kernel

/-- A file whose own name is a text can be found by its name, in whatever directory the document is. -/
theorem leading_back : workingDirectory.marks.isAbsolute = true ∧ (file (Text.encode "é.js")).marks.Canonical ∧
    (file (Text.encode "é.js")).Legible roots .directory ∧
    ∃ target, Encoding.bytes.resolve (Encoding.bytes.filename roots (file (Text.encode "é.js")).marks .directory)
      roots.directory (some roots.base) = .ok target ∧ target.path = (file (Text.encode "é.js")).marks := by
  have hfile : (file (Text.encode "é.js")).marks.Canonical := ⟨by decide +kernel, by decide +kernel⟩
  have hfrom : (file (Text.encode "é.js")).marks.from? roots.directory =
      some (.ofComponents [Encoding.bytes.component (.normal "é.js")]) := by decide +kernel
  have hcomponents : (Path.ofComponents [Encoding.bytes.component (.normal "é.js")]).components =
      [Encoding.bytes.component (.normal "é.js")] := by decide +kernel
  have hlegible : (file (Text.encode "é.js")).Legible roots .directory := by
    intro way hway name hname
    obtain rfl := Option.some.inj (hfrom.symm.trans hway)
    rw [hcomponents, List.mem_singleton] at hname
    exact ⟨"é.js", congrArg Component.text hname⟩
  obtain ⟨-, hresolve, -⟩ :=
    @RawPath.resolve_filename_of_make _ isAbsolute_workingDirectory (RawPath.ofText "doc") none roots rfl
  obtain ⟨target, htarget, hpath⟩ := hresolve (file (Text.encode "é.js")) .directory hfile
  exact ⟨isAbsolute_workingDirectory, hfile, hlegible, target, htarget, hpath.mpr hlegible⟩

/-- Two files whose names are no texts have one name, which leads to neither of them. And from the directory as it was
given, before it was made absolute, a name leads to no absolute path. -/
theorem not_leading_back : roots.Canonical ∧ (file [0xFE]).marks.Canonical ∧ (file [0xFF]).marks.Canonical ∧
    file [0xFE] ≠ file [0xFF] ∧
    Encoding.bytes.filename roots (file [0xFE]).marks .directory =
      Encoding.bytes.filename roots (file [0xFF]).marks .directory ∧
    (∀ b ∈ [0xFE, 0xFF], ∃ target,
      Encoding.bytes.resolve (Encoding.bytes.filename roots (file [b]).marks .directory) roots.directory
        (some roots.base) = .ok target ∧ target.path ≠ (file [b]).marks) ∧
    ∃ target, Encoding.bytes.resolve (Encoding.bytes.filename roots (file (Text.encode "é.js")).marks .directory)
      (RawPath.ofText "doc").marks (some roots.base) = .ok target ∧
        target.path ≠ (file (Text.encode "é.js")).marks := by
  have hcanonical : ∀ b ∈ [0xFE, 0xFF], (file [b]).marks.Canonical := by
    intro b hb
    rcases List.mem_pair.mp hb with rfl | rfl
    · exact ⟨by decide +kernel, by decide +kernel⟩
    · exact ⟨by decide +kernel, by decide +kernel⟩
  have hname : ∀ b ∈ [0xFE, 0xFF], Encoding.bytes.filename roots (file [b]).marks .directory = "./\uFFFD" := by
    decide +kernel
  have htarget : Encoding.bytes.resolve "./\uFFFD" roots.directory (some roots.base) =
      .ok ⟨(file (Text.encode "\uFFFD")).marks, .directory⟩ := by decide +kernel
  refine ⟨Roots.canonical_make isAbsolute_workingDirectory _ _, hcanonical _ (by simp), hcanonical _ (by simp),
    by decide, (hname _ (by simp)).trans (hname _ (by simp)).symm, fun b hb => ?_, ?_⟩
  · rw [hname b hb]
    refine ⟨_, htarget, ?_⟩
    rcases List.mem_pair.mp hb with rfl | rfl
    · decide +kernel
    · decide +kernel
  · exact ⟨⟨(RawPath.ofText "doc/é.js").marks, .directory⟩, by decide +kernel, by decide +kernel⟩

end IllegibleName

end CellGraph
