import GlobalMetadata.Row

/-!
# Values and attributes

Default values, unmanaged sizes, custom attributes, field references and string literals.
-/

namespace GlobalMetadata

/-- The default value of a field. -/
structure FieldDefaultValue where
  fieldIndex : Nat
  /-- The descriptor of the value's type. -/
  typeIndex : Option Nat
  /-- The place of the value. -/
  dataIndex : Option Nat
  deriving DecidableEq, Repr

instance : Row FieldDefaultValue where
  kind := .fieldDefaultValue
  ofRecord r := do
    return {
      fieldIndex := ← r.uint32 .fieldIndex
      typeIndex := ← r.index .typeIndex
      dataIndex := ← r.index .dataIndex
    }

/-- The default value of a parameter. -/
structure ParameterDefaultValue where
  parameterIndex : Nat
  /-- The descriptor of the value's type. -/
  typeIndex : Option Nat
  /-- The place of the value. -/
  dataIndex : Option Nat
  deriving DecidableEq, Repr

instance : Row ParameterDefaultValue where
  kind := .parameterDefaultValue
  ofRecord r := do
    return {
      parameterIndex := ← r.uint32 .parameterIndex
      typeIndex := ← r.index .typeIndex
      dataIndex := ← r.index .dataIndex
    }

/-- The size of a field in unmanaged memory. -/
structure FieldMarshaledSize where
  fieldIndex : Nat
  /-- The descriptor of the field's type. -/
  typeIndex : Option Nat
  /-- The number of bytes. -/
  size : Int
  deriving DecidableEq, Repr

instance : Row FieldMarshaledSize where
  kind := .fieldMarshaledSize
  ofRecord r := do
    return {
      fieldIndex := ← r.uint32 .fieldIndex
      typeIndex := ← r.index .typeIndex
      size := ← r.int32 .size
    }

/-- The attribute types of one owner. -/
structure CustomAttributeTypeRange where
  token : Option Nat
  /-- The first attribute type. -/
  start : Int
  /-- The number of attribute types. -/
  count : Int
  deriving DecidableEq, Repr

instance : Row CustomAttributeTypeRange where
  kind := .customAttributeTypeRange
  ofRecord r := do
    return {
      token := r.uint32? .token
      start := ← r.int32 .start
      count := ← r.int32 .count
    }

/-- Where the attribute data of one owner starts. -/
structure CustomAttributeDataRange where
  token : Nat
  /-- The place of the first byte. -/
  startOffset : Nat
  deriving DecidableEq, Repr

instance : Row CustomAttributeDataRange where
  kind := .customAttributeDataRange
  ofRecord r := do
    return {
      token := ← r.uint32 .token
      startOffset := ← r.uint32 .startOffset
    }

/-- A field, named by its owner and its position there. -/
structure FieldRef where
  /-- The descriptor of the owner. -/
  typeIndex : Int
  /-- The position among the fields of the owner. -/
  fieldIndex : Int
  deriving DecidableEq, Repr

instance : Row FieldRef where
  kind := .fieldRef
  ofRecord r := do
    return {
      typeIndex := ← r.int32 .typeIndex
      fieldIndex := ← r.int32 .fieldIndex
    }

/-- The length of a string literal and its place in the literal data. -/
structure StringLiteral where
  /-- The number of bytes. -/
  length : Nat
  /-- The place of the first byte. -/
  dataIndex : Nat
  deriving DecidableEq, Repr

instance : Row StringLiteral where
  kind := .stringLiteral
  ofRecord r := do
    return {
      length := ← r.uint32 .length
      dataIndex := ← r.uint32 .dataIndex
    }

end GlobalMetadata
