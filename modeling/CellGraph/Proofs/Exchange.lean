import CellGraph.Exchange.Graph
import CellGraph.Proofs.Printing
import CellGraph.Proofs.Settings

/-!
# What is exchanged in JSON

Resources, diagnostics and graphs are read back as they were encoded (`Graph.reads`), like configurations
(`Configuration.reads`). They are encoded without numbers and with the members of all objects in order, so that nothing
of them is lost in a text (`Value.Plain`). What is exchanged is then read back from values and from texts, and any
object that sets fields of a configuration is read as the default one with these fields set (`exchange_exact`).
-/

namespace CellGraph

open Json Decoder Record

/-! ## Records read back -/

theorem Anchor.reads_name : Anchor.decode.Reads fun anchor => .string anchor.name := by rintro (_ | _) <;> rfl

theorem ResourceKind.reads_name : (variant ResourceKind.names).Reads fun kind => .string kind.name := by
  rintro (_ | _) <;> rfl

theorem DiagnosticKind.reads_name : (variant DiagnosticKind.names).Reads fun kind => .string kind.name := by
  rintro (_ | _) <;> rfl

theorem Path.reads_list : (list Path.decode).Reads fun ps => .ofTexts (ps.map Path.text) := by
  intro ps
  have hvalues : Value.ofTexts (ps.map Path.text) = .array (ps.map fun p => .string p.text) :=
    congrArg Value.array (List.map_map ..)
  exact (congrArg _ hvalues).trans (Path.inverts_decode.reads.list ps)

instance : Resource.record.Checked := by
  unfold Resource.record
  infer_instance

instance : Diagnostic.record.Checked := by
  unfold Diagnostic.record
  infer_instance

instance : Graph.record.Checked := by
  unfold Graph.record
  infer_instance

theorem Resource.reads : Resource.decode.Reads encode := by
  intro r
  have hdistinct : ["filename", "referent", "importPath", "pathType", "resourceType", "path"].Nodup := by decide
  rw [decode, encode, decode_ofMembers, ← yields_eq_iff, record]
  -- each field is the member of its name, from the last to the first
  simp only [yields_seq, yields_map]
  exact ⟨_, read_single_of_mem hdistinct (by simp) (Path.inverts_decode.reads _),
    _, read_single_of_mem hdistinct (by simp) (ResourceKind.reads_name _),
    _, read_single_of_mem hdistinct (by simp) (Anchor.reads_name _),
    _, read_single_of_mem hdistinct (by simp) (inverts_text.reads _),
    _, read_single_of_mem hdistinct (by simp) (Path.inverts_optional.reads _),
    _, read_single_of_mem hdistinct (by simp) (inverts_text.reads _), rfl⟩

theorem Diagnostic.reads : Diagnostic.decode.Reads encode := by
  intro d
  have hdistinct : ["kind", "referent", "importPath", "path", "message"].Nodup := by decide
  rw [decode, encode, decode_ofMembers, ← yields_eq_iff, record]
  simp only [yields_seq, yields_map]
  exact ⟨_, read_single_of_mem hdistinct (by simp) (inverts_text.reads _),
    _, read_single_of_mem hdistinct (by simp) (Path.inverts_optional.reads _),
    _, read_single_of_mem hdistinct (by simp) (inverts_text.reads _),
    _, read_single_of_mem hdistinct (by simp) (Path.inverts_optional.reads _),
    _, read_single_of_mem hdistinct (by simp) (DiagnosticKind.reads_name _), rfl⟩

theorem Graph.reads : Graph.decode.Reads encode := by
  intro g
  have hdistinct : ["buildId", "rootDir", "resources", "diagnostics", "sideEffectFiles"].Nodup := by decide
  rw [decode, encode, decode_ofMembers, ← yields_eq_iff, record]
  simp only [yields_seq, yields_map]
  exact ⟨_, read_single_of_mem hdistinct (by simp) (Path.reads_list _),
    _, read_single_of_mem hdistinct (by simp) (Diagnostic.reads.list _),
    _, read_single_of_mem hdistinct (by simp) (Resource.reads.list _),
    _, read_single_of_mem hdistinct (by simp) (Path.inverts_decode.reads _),
    _, read_single_of_mem hdistinct (by simp) (inverts_text.reads _), rfl⟩

/-! ## Texts read back -/

section Texts

open Value

theorem Resource.plain_encode (r : Resource) : r.encode.Plain := .ofMembers (by simp [Plain.string, plain_ofText?])

theorem Diagnostic.plain_encode (d : Diagnostic) : d.encode.Plain := .ofMembers (by simp [Plain.string, plain_ofText?])

theorem Graph.plain_encode (g : Graph) : g.encode.Plain :=
  .ofMembers (by
    simp [Plain.string, plain_ofTexts, Plain.array_map Resource.plain_encode, Plain.array_map Diagnostic.plain_encode])

theorem Configuration.plain_encode (config : Configuration) : config.encode.Plain :=
  .ofMembers (by simp [Plain.string, plain_ofText?, plain_ofTexts])

end Texts

/-- Configurations, diagnostics and graphs are read back as they were encoded, and what is encoded is read back from its
text. An object of distinct members in any order is read as a configuration just if each member with the name of a field
is a setting, which has a value of the type of the field. The configuration is then the default one in which these
settings have been made, and no others. -/
theorem exchange_exact :
    (∀ config : Configuration, Configuration.decode config.encode = .ok config ∧
      Value.parse? config.encode.print = some config.encode) ∧
    (∀ d : Diagnostic, Diagnostic.decode d.encode = .ok d ∧ Value.parse? d.encode.print = some d.encode) ∧
    (∀ g : Graph, Graph.decode g.encode = .ok g ∧ Value.parse? g.encode.print = some g.encode) ∧
    ∀ members : List (String × Value), (members.map Prod.fst).Nodup →
      ((∃ config, Configuration.decode (.ofMembers members) = .ok config) ↔
        ∀ m ∈ members, m.1 ∈ Setting.names → ∃ setting : Setting, setting.member = m) ∧
      ∀ settings : List Setting, settings.map Setting.member = members.filter (fun m => m.1 ∈ Setting.names) →
        Configuration.decode (.ofMembers members) = .ok (settings.foldl Configuration.set {}) :=
  ⟨fun config => ⟨Configuration.reads config, Value.parse?_print config.plain_encode⟩,
    fun d => ⟨Diagnostic.reads d, Value.parse?_print d.plain_encode⟩,
    fun g => ⟨Graph.reads g, Value.parse?_print g.plain_encode⟩,
    fun _ distinct => ⟨Configuration.exists_decode_iff distinct, fun _ => Configuration.decode_of_settings distinct⟩⟩

/-! ## An object with some of the fields -/

namespace Partial

/-- Two fields, not in the order of a configuration, and a member that is no field. -/
def members : List (String × Value) :=
  [("projectRoot", .string "/proj"), ("theme", .ofMembers [("dark", .bool true)]),
    ("attachmentFunction", .string "Attach")]

/-- The same members, and a text where a list of texts belongs. -/
def mistyped : List (String × Value) := ("moduleExtensions", .string "js") :: members

theorem decode_members : (members.map Prod.fst).Nodup ∧ (mistyped.map Prod.fst).Nodup ∧
    Configuration.decode (.ofMembers members) = .ok { attachmentFunction := "Attach", projectRoot := some ⟨"/proj"⟩ } ∧
    ¬∃ config, Configuration.decode (.ofMembers mistyped) = .ok config := by
  have hmembers : (members.map Prod.fst).Nodup := by decide
  have hmistyped : (mistyped.map Prod.fst).Nodup := by decide
  obtain ⟨-, -, -, hread⟩ := exchange_exact
  refine ⟨hmembers, hmistyped, ?_, fun h => ?_⟩
  · exact (hread members hmembers).2 [.projectRoot (some ⟨"/proj"⟩), .attachmentFunction "Attach"] rfl
  · obtain ⟨setting, hsetting⟩ := (hread mistyped hmistyped).1.mp h _ List.mem_cons_self (by decide)
    cases setting <;> simp [Setting.member, Value.ofTexts] at hsetting

end Partial

end CellGraph
