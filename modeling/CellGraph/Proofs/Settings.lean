import CellGraph.Exchange.Configuration
import CellGraph.Proofs.Records
import Mathlib.Data.Set.List

/-!
# Settings of a configuration

A `Setting` is a field of a configuration with what it is set to; as a member of an object it has the name of the field,
and a value of the field's type. A configuration is read from an object just if each of its settings is a member, or is
the default and no member has its name (`Configuration.read_record_eq_ok_iff`). So it is read just if all members with
names of fields are settings (`Configuration.exists_decode_iff`), and is then the default one in which they have been
made (`Configuration.decode_of_settings`).
-/

namespace CellGraph

open Json

/-- A field of a configuration with what it is set to. -/
inductive Setting
  | attachmentFunction (name : String)
  | scriptLanguage (language : String)
  | scriptExtensions (extensions : List String)
  | moduleExtensions (extensions : List String)
  | documentExtensions (extensions : List String)
  | recoverableExtension (extension : String)
  | typedExtension (extension : String)
  | projectRoot (root : Option Path)
  | projectMarkers (names : List String)
  deriving DecidableEq, Repr

namespace Setting

/-- The names of the fields. -/
def names : List String :=
  ["attachmentFunction", "scriptLanguage", "scriptExtensions", "moduleExtensions", "documentExtensions",
    "recoverableExtension", "typedExtension", "projectRoot", "projectMarkers"]

/-- A setting as a member of an object. -/
def member : Setting → String × Value
  | attachmentFunction name => ("attachmentFunction", .string name)
  | scriptLanguage language => ("scriptLanguage", .string language)
  | scriptExtensions extensions => ("scriptExtensions", .ofTexts extensions)
  | moduleExtensions extensions => ("moduleExtensions", .ofTexts extensions)
  | documentExtensions extensions => ("documentExtensions", .ofTexts extensions)
  | recoverableExtension extension => ("recoverableExtension", .string extension)
  | typedExtension extension => ("typedExtension", .string extension)
  | projectRoot root => ("projectRoot", .ofText? (root.map Path.text))
  | projectMarkers names => ("projectMarkers", .ofTexts names)

/-- The name of the field that is set. -/
def name (setting : Setting) : String := setting.member.1

theorem nodup_names : names.Nodup := by decide

end Setting

theorem Path.inverts_decode : Path.decode.Inverts fun p => .string p.text := by
  rintro value ⟨text⟩
  cases value <;> simp [Path.decode, Decoder.path, Except.map]

theorem Path.inverts_optional : (Decoder.optional Path.decode).Inverts fun p => .ofText? (p.map Path.text) := by
  rintro value (_ | ⟨⟨text⟩⟩) <;> cases value <;>
    simp [Decoder.optional, Value.ofText?, Path.decode, Decoder.path, Except.map]

namespace Configuration

/-- A configuration in which one field is set. -/
def set (config : Configuration) : Setting → Configuration
  | .attachmentFunction name => { config with attachmentFunction := name }
  | .scriptLanguage language => { config with scriptLanguage := language }
  | .scriptExtensions extensions => { config with scriptExtensions := extensions }
  | .moduleExtensions extensions => { config with moduleExtensions := extensions }
  | .documentExtensions extensions => { config with documentExtensions := extensions }
  | .recoverableExtension extension => { config with recoverableExtension := extension }
  | .typedExtension extension => { config with typedExtension := extension }
  | .projectRoot root => { config with projectRoot := root }
  | .projectMarkers names => { config with projectMarkers := names }

/-- The settings that make up a configuration. -/
def settings (config : Configuration) : List Setting :=
  [.attachmentFunction config.attachmentFunction, .scriptLanguage config.scriptLanguage,
    .scriptExtensions config.scriptExtensions, .moduleExtensions config.moduleExtensions,
    .documentExtensions config.documentExtensions, .recoverableExtension config.recoverableExtension,
    .typedExtension config.typedExtension, .projectRoot config.projectRoot, .projectMarkers config.projectMarkers]

variable {config : Configuration} {setting other : Setting} {settings : List Setting} {name : String}
  {values : String → Option Value} {members : List (String × Value)}

theorem encode_eq (config : Configuration) : config.encode = .ofMembers (config.settings.map Setting.member) := rfl

theorem map_name_settings (config : Configuration) : config.settings.map Setting.name = Setting.names := rfl

theorem settings_set : (config.set setting).settings =
    config.settings.map fun other => if other.name = setting.name then setting else other := by
  cases setting <;> simp [Configuration.settings, set, Setting.name, Setting.member]

/-- What is set in a configuration takes the place of what its field was set to. -/
theorem eq_or_mem_of_mem_settings_set (h : other ∈ (config.set setting).settings) :
    other = setting ∨ other ∈ config.settings ∧ setting.name ≠ other.name := by
  rw [settings_set, List.mem_map] at h
  obtain ⟨former, hformer, heq⟩ := h
  split at heq
  · exact .inl heq.symm
  · rename_i hname
    exact .inr ⟨heq ▸ hformer, fun e => hname (heq ▸ e.symm)⟩

/-- A field has what it is set to, or what it had if nothing sets it. -/
theorem mem_or_mem_of_mem_settings_foldl (h : setting ∈ (settings.foldl set config).settings) :
    setting ∈ settings ∨ setting ∈ config.settings ∧ ∀ other ∈ settings, other.name ≠ setting.name := by
  induction settings generalizing config with
  | nil => exact .inr ⟨h, fun _ hother => absurd hother List.not_mem_nil⟩
  | cons first settings ih =>
    obtain hlater | ⟨hfirst, hsettings⟩ := ih h
    · exact .inl (List.mem_cons_of_mem _ hlater)
    · obtain rfl | ⟨hconfig, hname⟩ := eq_or_mem_of_mem_settings_set hfirst
      · exact .inl List.mem_cons_self
      · exact .inr ⟨hconfig, List.forall_mem_cons.mpr ⟨hname, hsettings⟩⟩

instance : Configuration.record.Checked := by
  unfold Configuration.record
  infer_instance

/-- A configuration is read from the values of its fields, and from the defaults of those without one. -/
theorem read_record_eq_ok_iff : record.read values = .ok config ↔ ∀ setting ∈ config.settings,
    values setting.name = some setting.member.2 ∨
      values setting.name = none ∧ setting ∈ ({} : Configuration).settings := by
  have htexts : (Decoder.list Decoder.text).Inverts Value.ofTexts := Decoder.inverts_text.list
  rw [← Record.yields_eq_iff, record]
  -- the fields are taken off the record from the last to the first
  simp only [Record.yields_seq, Record.yields_map]
  simp only [Record.Yields, Record.read_defaulted_eq_ok_iff Decoder.inverts_text,
    Record.read_defaulted_eq_ok_iff htexts, Record.read_defaulted_eq_ok_iff Path.inverts_optional]
  constructor
  · rintro ⟨markers, hmarkers, root, hroot, typed, htyped, recoverable, hrecoverable, documents, hdocuments, modules,
      hmodules, scripts, hscripts, language, hlanguage, function, hfunction, rfl⟩
    simp [Configuration.settings, Setting.name, Setting.member, *]
  · intro h
    simp only [Configuration.settings, List.mem_cons, List.not_mem_nil, or_false, Setting.name, Setting.member,
      forall_eq_or_imp, Setting.attachmentFunction.injEq, reduceCtorEq, or_self, Setting.scriptLanguage.injEq, false_or,
      Setting.scriptExtensions.injEq, Setting.moduleExtensions.injEq, Setting.documentExtensions.injEq,
      Setting.recoverableExtension.injEq, Setting.typedExtension.injEq, Setting.projectRoot.injEq, forall_eq,
      Setting.projectMarkers.injEq] at h
    obtain ⟨hfunction, hlanguage, hscripts, hmodules, hdocuments, hrecoverable, htyped, hroot, hmarkers⟩ := h
    exact ⟨_, hmarkers, _, hroot, _, htyped, _, hrecoverable, _, hdocuments, _, hmodules, _, hscripts, _, hlanguage, _,
      hfunction, rfl⟩

theorem reads : decode.Reads encode := by
  intro config
  have hdistinct : ((config.settings.map Setting.member).map Prod.fst).Nodup := Setting.nodup_names
  rw [decode, encode_eq, Record.decode_ofMembers, read_record_eq_ok_iff]
  intro setting hsetting
  exact .inl ((Value.get?_ofMembers_eq_some_iff hdistinct).mpr (List.mem_map_of_mem hsetting))

/-- The fields that an object sets are the only ones that differ from the default. -/
theorem decode_of_settings (distinct : (members.map Prod.fst).Nodup)
    (h : settings.map Setting.member = members.filter fun m => m.1 ∈ Setting.names) :
    decode (.ofMembers members) = .ok (settings.foldl set {}) := by
  rw [decode, Record.decode_ofMembers, read_record_eq_ok_iff]
  -- a field that nothing sets is no member, because all members with names of fields are settings
  intro setting hsetting
  have hname : setting.name ∈ Setting.names := by
    rw [← map_name_settings]
    exact List.mem_map_of_mem hsetting
  obtain hset | ⟨hdefault, hother⟩ := mem_or_mem_of_mem_settings_foldl hsetting
  · have hmember : setting.member ∈ members.filter fun m => m.1 ∈ Setting.names := h ▸ List.mem_map_of_mem hset
    exact .inl ((Value.get?_ofMembers_eq_some_iff distinct).mpr (List.mem_of_mem_filter hmember))
  · refine .inr ⟨Option.eq_none_iff_forall_ne_some.mpr fun value hvalue => ?_, hdefault⟩
    have hmember : (setting.name, value) ∈ members.filter fun m => m.1 ∈ Setting.names :=
      List.mem_filter.mpr ⟨(Value.get?_ofMembers_eq_some_iff distinct).mp hvalue, decide_eq_true hname⟩
    rw [← h] at hmember
    obtain ⟨other, hmem, heq⟩ := List.mem_map.mp hmember
    have hsame : other.name = setting.name := by rw [Setting.name, heq]
    exact hother other hmem hsame

/-- In an object that is read, the members with names of fields are settings. -/
theorem exists_setting_of_decode (distinct : (members.map Prod.fst).Nodup)
    (h : decode (.ofMembers members) = .ok config)
    {m : String × Value} (hm : m ∈ members) (hname : m.1 ∈ Setting.names) :
    ∃ setting : Setting, setting.member = m := by
  rw [decode, Record.decode_ofMembers, read_record_eq_ok_iff] at h
  rw [← map_name_settings config] at hname
  obtain ⟨setting, hsetting, hnamed⟩ := List.mem_map.mp hname
  have hget := (Value.get?_ofMembers_eq_some_iff distinct).mpr (show (m.1, m.2) ∈ members from hm)
  obtain hvalue | ⟨hnone, -⟩ := h setting hsetting
  · rw [hnamed, hget, Option.some.injEq] at hvalue
    exact ⟨setting, Prod.ext hnamed hvalue.symm⟩
  · rw [hnamed, hget] at hnone
    cases hnone

/-- An object is read just if its members with names of fields are settings. -/
theorem exists_decode_iff (distinct : (members.map Prod.fst).Nodup) :
    (∃ config, decode (.ofMembers members) = .ok config) ↔
      ∀ m ∈ members, m.1 ∈ Setting.names → ∃ setting : Setting, setting.member = m := by
  constructor
  · rintro ⟨config, h⟩ m hm hname
    exact exists_setting_of_decode distinct h hm hname
  · intro h
    obtain ⟨settings, hsettings⟩ :
        members.filter (fun m => m.1 ∈ Setting.names) ∈ Set.range (List.map Setting.member) := by
      rw [Set.range_list_map]
      intro m hm
      obtain ⟨hmem, hname⟩ := List.mem_filter.mp hm
      exact h m hmem (of_decide_eq_true hname)
    exact ⟨_, decode_of_settings distinct hsettings⟩

end Configuration

end CellGraph
