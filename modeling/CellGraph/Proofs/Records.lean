import CellGraph.Json.Decoding
import Mathlib.Data.List.Forall2
import Mathlib.Data.List.Induction
import Mathlib.Data.String.Basic

/-!
# Records read from objects

An object holds distinct members in whatever order it is made of them (`Value.get?_ofMembers_eq_some_iff`). What is
wrong with a member is found when its field is read (`Record.Checked`), and so a record is read from an object just as
from what the object holds under the names of its fields (`Record.decode_ofMembers`). A decoder may read what is encoded
(`Decoder.Reads`), or that and nothing else (`Decoder.Inverts`); a list of such values is then read in the same way.
-/

namespace CellGraph.Json

/-! ## The members of an object -/

section Members

variable {name other : String} {value : Value} {member : String × Value} {members : List (String × Value)}

theorem eq_or_mem_of_mem_putMember (h : member ∈ putMember name value members) :
    member = (name, value) ∨ member ∈ members := by
  induction members with
  | nil => exact .inl (List.mem_singleton.mp h)
  | cons first members ih =>
    unfold putMember at h
    split at h
    · exact List.mem_cons.mp h
    · split at h
      · exact (List.mem_cons.mp h).imp_right (List.mem_cons_of_mem _)
      · rcases List.mem_cons.mp h with rfl | h
        · exact .inr List.mem_cons_self
        · exact (ih h).imp_right (List.mem_cons_of_mem _)

/-- A member is put in its place. -/
theorem pairwise_putMember (h : members.Pairwise (·.1 < ·.1)) :
    (putMember name value members).Pairwise (·.1 < ·.1) := by
  induction members with
  | nil => exact List.pairwise_singleton _ _
  | cons first members ih =>
    obtain ⟨hfirst, hmembers⟩ := List.pairwise_cons.mp h
    unfold putMember
    split
    · rename_i hlt
      refine List.pairwise_cons.mpr ⟨fun m hm => ?_, h⟩
      rcases List.mem_cons.mp hm with rfl | hm
      · exact hlt
      · exact hlt.trans (hfirst m hm)
    · split
      · rename_i heq
        exact List.pairwise_cons.mpr ⟨fun m hm => heq ▸ hfirst m hm, hmembers⟩
      · rename_i hlt hne
        refine List.pairwise_cons.mpr ⟨fun m hm => ?_, ih hmembers⟩
        rcases eq_or_mem_of_mem_putMember hm with rfl | hm
        · exact lt_of_le_of_ne (not_lt.mp hlt) (Ne.symm hne)
        · exact hfirst m hm

/-- A member that comes after all others is put behind them. -/
theorem putMember_eq_append (h : ∀ m ∈ members, m.1 < name) :
    putMember name value members = members ++ [(name, value)] := by
  induction members with
  | nil => rfl
  | cons first members ih =>
    have hfirst := h first List.mem_cons_self
    rw [putMember, if_neg hfirst.asymm, if_neg hfirst.ne', ih fun m hm => h m (List.mem_cons_of_mem _ hm)]
    rfl

theorem find?_putMember : (putMember name value members).find? (fun m => m.1 == other) =
    if name = other then some (name, value) else members.find? fun m => m.1 == other := by
  induction members with
  | nil => by_cases h : name = other <;> simp [putMember, h]
  | cons first members ih =>
    unfold putMember
    by_cases h : name = other
    · split
      · simp [h]
      · split
        · simp [h]
        · rename_i hne
          have hfirst : first.1 ≠ other := fun e => hne (h.trans e.symm)
          simpa [hfirst, h] using ih
    · split
      · simp [h]
      · split
        · rename_i heq
          have hfirst : first.1 ≠ other := fun e => h (heq.trans e)
          simp [h, hfirst]
        · simp only [List.find?_cons, ih, h, if_false]

namespace Value

/-- Another member is put into what the object has. -/
theorem ofMembers_concat {sorted : List (String × Value)} (h : ofMembers members = .object sorted) :
    ofMembers (members ++ [member]) = .object (putMember member.1 member.2 sorted) := by
  rw [ofMembers, object.injEq] at h
  rw [ofMembers, List.foldl_concat, h]

/-- An object has its members in order, and they are among those that it is made of. -/
theorem exists_ofMembers_eq (members : List (String × Value)) : ∃ sorted, ofMembers members = .object sorted ∧
    sorted.Pairwise (·.1 < ·.1) ∧ ∀ m ∈ sorted, m ∈ members := by
  induction members using List.reverseRecOn with
  | nil => exact ⟨[], rfl, .nil, fun _ hm => hm⟩
  | append_singleton members last ih =>
    obtain ⟨sorted, hobject, hsorted, hmem⟩ := ih
    refine ⟨_, ofMembers_concat hobject, pairwise_putMember hsorted, fun m hm => ?_⟩
    rw [List.mem_append, List.mem_singleton]
    exact (eq_or_mem_of_mem_putMember hm).symm.imp_left (hmem m)

/-- Members in order are the members of an object. -/
theorem ofMembers_of_pairwise (h : members.Pairwise (·.1 < ·.1)) : ofMembers members = .object members := by
  induction members using List.reverseRecOn with
  | nil => rfl
  | append_singleton members last ih =>
    obtain ⟨hmembers, -, hlast⟩ := List.pairwise_append.mp h
    rw [ofMembers_concat (ih hmembers), putMember_eq_append fun m hm => hlast m hm last (List.mem_singleton_self last)]

theorem get?_ofMembers_concat : (ofMembers (members ++ [member])).get? other =
    if member.1 = other then some member.2 else (ofMembers members).get? other := by
  obtain ⟨sorted, hobject, -⟩ := exists_ofMembers_eq members
  rw [ofMembers_concat hobject, hobject, get?, get?, find?_putMember]
  split <;> rfl

/-- An object holds distinct members, in whatever order it is made of them. -/
theorem get?_ofMembers_eq_some_iff (distinct : (members.map Prod.fst).Nodup) :
    (ofMembers members).get? name = some value ↔ (name, value) ∈ members := by
  induction members using List.reverseRecOn with
  | nil => simp [ofMembers, get?]
  | append_singleton members last ih =>
    rw [List.map_append, List.nodup_append] at distinct
    obtain ⟨hmembers, -, hlast⟩ := distinct
    rw [get?_ofMembers_concat, List.mem_append, List.mem_singleton, Prod.ext_iff]
    split
    · rename_i hname
      have hnot : (name, value) ∉ members := fun hm =>
        hlast name (List.mem_map_of_mem hm) last.1 (List.mem_map_of_mem List.mem_cons_self) hname.symm
      simp [hnot, hname, eq_comm]
    · rename_i hname
      simp [ih hmembers, Ne.symm hname]

end Value

end Members

/-! ## Reading a record -/

namespace Record

section Read

variable {α β : Type} {values : String → Option Value} {f : Record (α → β)} {record : Record α}

theorem read_map_eq_ok_iff {g : α → β} {b : β} :
    (g <$> record).read values = .ok b ↔ ∃ a, record.read values = .ok a ∧ g a = b := by
  change (record.read values).map g = .ok b ↔ _
  cases record.read values <;> simp [Except.map]

theorem read_seq_eq_ok_iff {b : β} : (f <*> record).read values = .ok b ↔
    ∃ g a, f.read values = .ok g ∧ record.read values = .ok a ∧ g a = b := by
  change (f.read values >>= fun g => record.read values >>= fun a => pure (g a)) = .ok b ↔ _
  cases f.read values <;> cases record.read values <;> simp [bind, Except.bind, pure, Except.pure]

/-- Whether a record is read, and what it is read as has a property. -/
def Yields (record : Record α) (values : String → Option Value) (p : α → Prop) : Prop :=
  ∃ a, record.read values = .ok a ∧ p a

theorem yields_eq_iff {a : α} : record.Yields values (· = a) ↔ record.read values = .ok a := by simp [Yields]

theorem yields_map {g : α → β} {p : β → Prop} :
    (g <$> record).Yields values p ↔ record.Yields values fun a => p (g a) := by
  simp only [Yields, read_map_eq_ok_iff]
  constructor
  · rintro ⟨_, ⟨a, ha, rfl⟩, hp⟩
    exact ⟨a, ha, hp⟩
  · rintro ⟨a, ha, hp⟩
    exact ⟨_, ⟨a, ha, rfl⟩, hp⟩

/-- The last field of a record is read, and the record of the others with it. -/
theorem yields_seq {p : β → Prop} :
    (f <*> record).Yields values p ↔ record.Yields values fun a => f.Yields values fun g => p (g a) := by
  simp only [Yields, read_seq_eq_ok_iff]
  constructor
  · rintro ⟨_, ⟨g, a, hg, ha, rfl⟩, hp⟩
    exact ⟨a, ha, g, hg, hp⟩
  · rintro ⟨a, ha, g, hg, hp⟩
    exact ⟨_, ⟨g, a, hg, ha, rfl⟩, hp⟩

end Read

variable {α β : Type}

/-- Records that check their fields by reading them: what stands under the name of a field then fits it. -/
class Checked (record : Record α) : Prop where
  check_eq_ok : ∀ {values a field value}, record.read values = .ok a → field ∈ record.fields →
    values field.name = some value → field.check value = .ok ()

instance (name : String) (decoder : Decoder α) (absence : Absence) (missing : Except DecodeError α) :
    Checked (single name decoder absence missing) where
  check_eq_ok := by
    intro values a field value h hfield hvalue
    obtain rfl := List.mem_singleton.mp hfield
    simp only [single, hvalue] at h
    simp [h, Except.map]

instance (name : String) (decoder : Decoder α) : Checked (required name decoder) :=
  inferInstanceAs (Checked (single ..))

instance (name : String) (decoder : Decoder α) : Checked (nullable name decoder) :=
  inferInstanceAs (Checked (single ..))

instance (name : String) (decoder : Decoder α) (value : α) : Checked (defaulted name decoder value) :=
  inferInstanceAs (Checked (single ..))

instance (g : α → β) (record : Record α) [hrecord : Checked record] : Checked (g <$> record) where
  check_eq_ok := by
    intro values b field value hread hfield hvalue
    obtain ⟨a, ha, -⟩ := read_map_eq_ok_iff.mp hread
    exact hrecord.check_eq_ok ha hfield hvalue

instance (f : Record (α → β)) (record : Record α) [hf : Checked f] [hrecord : Checked record] :
    Checked (f <*> record) where
  check_eq_ok := by
    intro values b field value hread hfield hvalue
    obtain ⟨g, a, hg, ha, -⟩ := read_seq_eq_ok_iff.mp hread
    rcases List.mem_append.mp hfield with hfield | hfield
    · exact hf.check_eq_ok hg hfield hvalue
    · exact hrecord.check_eq_ok ha hfield hvalue

theorem checkMembers_eq_ok_iff {fields : List Field} {members : List (String × Value)} :
    checkMembers fields members = .ok () ↔ ∀ m ∈ members, ∀ field,
      fields.find? (fun field => field.name == m.1) = some field → field.check m.2 = .ok () := by
  induction members with
  | nil => simp [checkMembers]
  | cons first members ih =>
    obtain ⟨name, value⟩ := first
    rw [List.forall_mem_cons, ← ih, checkMembers]
    cases hfield : fields.find? fun field => field.name == name with
    | none => simp
    | some field => cases hcheck : field.check value <;> simp [hcheck, bind, Except.bind]

/-- A record is read from an object just as from what the object holds under the names of its fields. -/
theorem decode_ofMembers (record : Record α) [hchecked : Checked record] (type : String)
    (members : List (String × Value)) {a : α} : record.decode type (.ofMembers members) = .ok a ↔
      record.read (fun name => (Value.ofMembers members).get? name) = .ok a := by
  obtain ⟨sorted, hobject, hsorted, -⟩ := Value.exists_ofMembers_eq members
  have hget : ∀ m ∈ sorted, (Value.ofMembers members).get? m.1 = some m.2 := fun m hm => by
    have hdistinct : (sorted.map Prod.fst).Nodup := List.Pairwise.map _ (fun _ _ hlt => hlt.ne) hsorted
    rw [hobject, ← Value.ofMembers_of_pairwise hsorted]
    exact (Value.get?_ofMembers_eq_some_iff hdistinct).mpr hm
  rw [hobject] at hget ⊢
  have hread : record.decode type (.object sorted) =
      (checkMembers record.fields sorted).bind fun _ => record.read fun name => (Value.object sorted).get? name := rfl
  rw [hread]
  constructor
  · intro hdecode
    cases hcheck : checkMembers record.fields sorted with
    | error e =>
      rw [hcheck] at hdecode
      cases hdecode
    | ok _ =>
      rw [hcheck] at hdecode
      exact hdecode
  · intro hrecord
    -- a member with the name of a field has been read with the record, and a member without one is not checked
    have hcheck : checkMembers record.fields sorted = .ok () := checkMembers_eq_ok_iff.mpr fun m hm field hfield => by
      have hname : field.name = m.1 := by simpa using List.find?_some hfield
      exact hchecked.check_eq_ok hrecord (List.mem_of_find?_eq_some hfield) (hname ▸ hget m hm)
    rw [hcheck]
    exact hrecord

/-- A field is read from an object as its decoder reads the member of its name. -/
theorem read_single_of_mem {members : List (String × Value)} {name : String} {value : Value} {decoder : Decoder α}
    {absence : Absence} {missing : Except DecodeError α} {a : α} (distinct : (members.map Prod.fst).Nodup)
    (hmember : (name, value) ∈ members) (hread : decoder value = .ok a) :
    (single name decoder absence missing).read (fun name => (Value.ofMembers members).get? name) = .ok a := by
  simp only [single, (Value.get?_ofMembers_eq_some_iff distinct).mpr hmember, hread]

end Record

/-! ## Decoders -/

namespace Decoder

variable {α : Type} {decoder : Decoder α} {encode : α → Value}

/-- Whether a decoder reads back what is encoded. -/
def Reads (decoder : Decoder α) (encode : α → Value) : Prop := ∀ a, decoder (encode a) = .ok a

/-- Whether a decoder reads what is encoded and nothing else. -/
def Inverts (decoder : Decoder α) (encode : α → Value) : Prop := ∀ value a, decoder value = .ok a ↔ value = encode a

theorem Inverts.reads (h : decoder.Inverts encode) : decoder.Reads encode := fun a => (h _ a).mpr rfl

theorem inverts_text : text.Inverts .string := by
  intro value s
  cases value <;> simp [text]

theorem mapM_eq_ok_iff {elements : List Value} {as : List α} :
    elements.mapM decoder = .ok as ↔ List.Forall₂ (fun element a => decoder element = .ok a) elements as := by
  induction elements generalizing as with
  | nil => cases as <;> simp [pure, Except.pure]
  | cons element elements ih =>
    rw [List.mapM_cons, List.forall₂_cons_left_iff]
    simp only [← ih]
    cases decoder element <;> cases elements.mapM decoder <;> simp [bind, Except.bind, pure, Except.pure, eq_comm]

theorem Reads.list (h : decoder.Reads encode) : (list decoder).Reads fun as => .array (as.map encode) := by
  intro as
  refine mapM_eq_ok_iff.mpr (List.forall₂_map_left_iff.mpr ?_)
  exact List.forall₂_same.mpr fun a _ => h a

theorem Inverts.list (h : decoder.Inverts encode) : (list decoder).Inverts fun as => .array (as.map encode) := by
  intro value as
  cases value with
  | array elements =>
    change elements.mapM decoder = .ok as ↔ _
    simp only [mapM_eq_ok_iff, h _ _, Value.array.injEq, ← List.forall₂_eq_eq_eq, List.forall₂_map_right_iff]
  | _ => simp [Decoder.list]

end Decoder

/-- A field with a default is read if its value is what is encoded, or if there is none. -/
theorem Record.read_defaulted_eq_ok_iff {α : Type} {decoder : Decoder α} {encode : α → Value}
    (h : decoder.Inverts encode)
    {name : String} {default a : α} {values : String → Option Value} :
    (defaulted name decoder default).read values = .ok a ↔
      values name = some (encode a) ∨ values name = none ∧ a = default := by
  simp only [defaulted, single]
  cases values name with
  | none => simp [eq_comm]
  | some value => simp [h value a]

end CellGraph.Json
