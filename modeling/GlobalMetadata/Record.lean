import GlobalMetadata.Bytes
import GlobalMetadata.Error

/-!
# Records

A `Record` holds the values of one structure, as they were stored, under the names of exactly those
fields that the version at hand has. To ask it for any other field is an error and never yields a
default.

Values are kept as unsigned numbers. `int32`, `index` and their relatives read them as the field
means them: signed, narrowed, or as an index that may be missing.
-/

namespace GlobalMetadata

/-- The values of one structure. -/
structure Record where
  /-- The kind of structure. -/
  kind : RecordKind
  /-- The version that decided which fields there are. -/
  version : Version
  /-- The fields with their values, in stored order. -/
  entries : List (Field × Nat)
  deriving DecidableEq, Repr

namespace Record

/-- The names of the fields, in stored order. -/
def fields (record : Record) : List Field :=
  record.entries.map (·.1)

/-- The value of a field, if the record has it. -/
def get? (record : Record) (field : Field) : Option Nat :=
  (record.entries.find? (·.1 = field)).map (·.2)

/-- Whether the record has a field. -/
def contains (record : Record) (field : Field) : Bool :=
  record.entries.any (·.1 = field)

/-- The value of a field that the record has to have. -/
def get (record : Record) (field : Field) : Except Error Nat :=
  match record.get? field with
  | some value => .ok value
  | none => .error (.fieldAbsent record.kind field.name record.version)

/-- The low 32 bits of a field, signed. -/
def int32 (record : Record) (field : Field) : Except Error Int :=
  asInt32 <$> record.get field

/-- The low 32 bits of a field. -/
def uint32 (record : Record) (field : Field) : Except Error Nat :=
  asUInt32 <$> record.get field

/-- The low 16 bits of a field, signed. -/
def int16 (record : Record) (field : Field) : Except Error Int :=
  asInt16 <$> record.get field

/-- The low 16 bits of a field. -/
def uint16 (record : Record) (field : Field) : Except Error Nat :=
  asUInt16 <$> record.get field

/-- The low 8 bits of a field. -/
def uint8 (record : Record) (field : Field) : Except Error Nat :=
  asUInt8 <$> record.get field

/-- A field that holds an index into a table; a negative one is missing. -/
def index (record : Record) (field : Field) : Except Error (Option Nat) :=
  asIndex <$> record.get field

/-- The low 32 bits of a field that some versions lack. -/
def uint32? (record : Record) (field : Field) : Option Nat :=
  asUInt32 <$> record.get? field

/-- An index in a field that some versions lack. -/
def index? (record : Record) (field : Field) : Option Nat :=
  record.get? field >>= asIndex

/-! ### Access by written name -/

/-- Whether the record has a field of a given written name. -/
def containsNamed (record : Record) (name : String) : Bool :=
  record.entries.any (·.1.name = name)

/-- The value of the field with a given written name. -/
def getNamed (record : Record) (name : String) : Except Error Nat :=
  match record.entries.find? (·.1.name = name) with
  | some (_, value) => .ok value
  | none => .error (.fieldAbsent record.kind name record.version)

end Record

end GlobalMetadata
