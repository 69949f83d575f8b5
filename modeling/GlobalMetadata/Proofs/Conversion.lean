import GlobalMetadata.Metadata

/-!
# Rows that always convert

A row asks its record for fields by name, and a record without such a field is an error. It never
comes to that: whatever a row insists on is a *permanent* field of its kind, one that is declared
without any window of versions and is therefore part of every resolved layout. Fields that come and
go are asked for as optional ones.

`LawfulRow` says so for a type of rows, together with what else reading a table relies on: that the
structure belongs to the blob and is not empty, and that the version a record carries for its error
texts does not show in the row.
-/

namespace GlobalMetadata

/-! ### Permanent fields -/

/-- The fields of a kind that no window of versions takes away. -/
def RecordKind.permanent (kind : RecordKind) : List Field :=
  (kind.fields.filter (·.windows.isEmpty)).map (·.field)

/-- Permanent fields exist for every pair of versions. -/
theorem RecordKind.mem_present_of_permanent {kind : RecordKind} {field : Field}
    (h : field ∈ kind.permanent) (pair : VersionPair) :
    field ∈ ((Layout.of kind).present pair).map (·.field) := by
  obtain ⟨spec, h_spec, rfl⟩ := List.mem_map.mp h
  obtain ⟨h_declared, h_always⟩ := List.mem_filter.mp h_spec
  refine List.mem_map.mpr ⟨spec, List.mem_filter.mpr ⟨h_declared, ?_⟩, rfl⟩
  rw [FieldSpec.isPresent, h_always, Bool.true_or]

namespace Record

/-- The record has all of these fields. -/
def Has (record : Record) (fields : List Field) : Prop :=
  ∀ field ∈ fields, (record.get? field).isSome = true

/-- The value of a field, 0 without one. -/
def value (record : Record) (field : Field) : Nat :=
  (record.get? field).getD 0

theorem get_eq_value {record : Record} {fields : List Field} (h : record.Has fields) {field : Field}
    (h_field : field ∈ fields) : record.get field = .ok (record.value field) := by
  obtain ⟨value, h_value⟩ := Option.isSome_iff_exists.mp (h field h_field)
  rw [get, Record.value, h_value]
  rfl

/-- A record has the fields that its entries name. -/
theorem isSome_get?_iff {record : Record} {field : Field} :
    (record.get? field).isSome = true ↔ field ∈ record.fields := by
  rw [get?, Option.isSome_map, List.find?_isSome, Record.fields, List.mem_map]
  exact exists_congr fun entry => and_congr_right fun _ => decide_eq_true_iff

theorem has_of_forall_mem {record : Record} {fields : List Field}
    (h : ∀ field ∈ fields, field ∈ record.fields) : record.Has fields :=
  fun field h_field => isSome_get?_iff.mpr (h field h_field)

/-- The version of a record takes no field away. -/
theorem Has.withVersion {record : Record} {fields : List Field} (h : record.Has fields)
    (version : Version) : Record.Has { record with version := version } fields :=
  h

end Record

/-! ### Lawful rows -/

/-- A type of rows that every record of its kind can be converted to. -/
class LawfulRow (α : Type) [Row α] : Prop where
  /-- The structure belongs to the blob. -/
  axis_eq : (Row.kind α).axis = .metadata := by rfl
  /-- There is at least one field in every version. -/
  permanent_ne_nil : (Row.kind α).permanent ≠ [] := by decide
  /-- The permanent fields are enough, and the version of the record does not matter. -/
  converts : ∀ record : Record, record.Has (Row.kind α).permanent → ∀ version : Version,
    ∃ row, (Row.ofRecord record : Except Error α) = .ok row ∧
      (Row.ofRecord { record with version := version } : Except Error α) = .ok row

/-! Each conversion is run with the values of the permanent fields, once for either version. Whether
a field is permanent is decided from its declaration. -/

section Instances

open Record

instance : LawfulRow StringLiteral where
  converts record h version := by
    simp (disch := decide) only [Row.ofRecord, uint32, get_eq_value h,
      get_eq_value (h.withVersion version)]
    exact ⟨_, rfl, rfl⟩

instance : LawfulRow ImageDefinition where
  converts record h version := by
    simp (disch := decide) only [Row.ofRecord, uint32, int32, index, get_eq_value h,
      get_eq_value (h.withVersion version)]
    exact ⟨_, rfl, rfl⟩

instance : LawfulRow AssemblyDefinition where
  converts record h version := by
    simp (disch := decide) only [Row.ofRecord, AssemblyName.ofRecord, uint32, int32, get_eq_value h,
      get_eq_value (h.withVersion version)]
    exact ⟨_, rfl, rfl⟩

instance : LawfulRow TypeDefinition where
  converts record h version := by
    simp (disch := decide) only [Row.ofRecord, uint32, int32, uint16, index, get_eq_value h,
      get_eq_value (h.withVersion version)]
    exact ⟨_, rfl, rfl⟩

instance : LawfulRow MethodDefinition where
  converts record h version := by
    simp (disch := decide) only [Row.ofRecord, uint32, int32, uint16, index, get_eq_value h,
      get_eq_value (h.withVersion version)]
    exact ⟨_, rfl, rfl⟩

instance : LawfulRow ParameterDefinition where
  converts record h version := by
    simp (disch := decide) only [Row.ofRecord, uint32, index, get_eq_value h,
      get_eq_value (h.withVersion version)]
    exact ⟨_, rfl, rfl⟩

instance : LawfulRow FieldDefinition where
  converts record h version := by
    simp (disch := decide) only [Row.ofRecord, uint32, index, get_eq_value h,
      get_eq_value (h.withVersion version)]
    exact ⟨_, rfl, rfl⟩

instance : LawfulRow PropertyDefinition where
  converts record h version := by
    simp (disch := decide) only [Row.ofRecord, uint32, index, get_eq_value h,
      get_eq_value (h.withVersion version)]
    exact ⟨_, rfl, rfl⟩

instance : LawfulRow EventDefinition where
  converts record h version := by
    simp (disch := decide) only [Row.ofRecord, uint32, index, get_eq_value h,
      get_eq_value (h.withVersion version)]
    exact ⟨_, rfl, rfl⟩

instance : LawfulRow GenericContainer where
  converts record h version := by
    simp (disch := decide) only [Row.ofRecord, uint32, int32, index, get_eq_value h,
      get_eq_value (h.withVersion version)]
    exact ⟨_, rfl, rfl⟩

instance : LawfulRow GenericParameter where
  converts record h version := by
    simp (disch := decide) only [Row.ofRecord, uint32, int32, uint16, int16, get_eq_value h,
      get_eq_value (h.withVersion version)]
    exact ⟨_, rfl, rfl⟩

instance : LawfulRow FieldDefaultValue where
  converts record h version := by
    simp (disch := decide) only [Row.ofRecord, uint32, index, get_eq_value h,
      get_eq_value (h.withVersion version)]
    exact ⟨_, rfl, rfl⟩

instance : LawfulRow ParameterDefaultValue where
  converts record h version := by
    simp (disch := decide) only [Row.ofRecord, uint32, index, get_eq_value h,
      get_eq_value (h.withVersion version)]
    exact ⟨_, rfl, rfl⟩

instance : LawfulRow FieldMarshaledSize where
  converts record h version := by
    simp (disch := decide) only [Row.ofRecord, uint32, int32, index, get_eq_value h,
      get_eq_value (h.withVersion version)]
    exact ⟨_, rfl, rfl⟩

instance : LawfulRow CustomAttributeTypeRange where
  converts record h version := by
    simp (disch := decide) only [Row.ofRecord, int32, get_eq_value h,
      get_eq_value (h.withVersion version)]
    exact ⟨_, rfl, rfl⟩

instance : LawfulRow CustomAttributeDataRange where
  converts record h version := by
    simp (disch := decide) only [Row.ofRecord, uint32, get_eq_value h,
      get_eq_value (h.withVersion version)]
    exact ⟨_, rfl, rfl⟩

instance : LawfulRow FieldRef where
  converts record h version := by
    simp (disch := decide) only [Row.ofRecord, int32, get_eq_value h,
      get_eq_value (h.withVersion version)]
    exact ⟨_, rfl, rfl⟩

end Instances

end GlobalMetadata
