import GlobalMetadata.Row

/-!
# Type definitions

The row of a class, value type, enumeration or interface. Its members are runs in other tables,
given by a start and a count; the types that it mentions are indices into the table of type
descriptors.
-/

namespace GlobalMetadata

/-- A class, value type, enumeration or interface. -/
structure TypeDefinition where
  /-- The place of the name in the string heap. -/
  nameIndex : Nat
  /-- The place of the namespace in the string heap. -/
  namespaceIndex : Nat
  /-- The type as a value. -/
  byvalTypeIndex : Option Nat
  /-- The type as a reference. -/
  byrefTypeIndex : Option Nat
  /-- The type around this one. -/
  declaringTypeIndex : Option Nat
  parentIndex : Option Nat
  /-- The underlying type of an enumeration. -/
  elementTypeIndex : Option Nat
  genericContainerIndex : Option Nat
  flags : Nat
  fieldStart : Int
  methodStart : Int
  eventStart : Int
  propertyStart : Int
  /-- The first nested type. -/
  nestedTypesStart : Int
  /-- The first implemented interface. -/
  interfacesStart : Int
  /-- The first method of the dispatch table. -/
  vtableStart : Int
  /-- The first interface offset. -/
  interfaceOffsetsStart : Int
  /-- The number of methods. -/
  methodCount : Nat
  /-- The number of properties. -/
  propertyCount : Nat
  /-- The number of fields. -/
  fieldCount : Nat
  /-- The number of events. -/
  eventCount : Nat
  /-- The number of nested types. -/
  nestedTypeCount : Nat
  /-- The number of methods of the dispatch table. -/
  vtableCount : Nat
  /-- The number of implemented interfaces. -/
  interfacesCount : Nat
  /-- The number of interface offsets. -/
  interfaceOffsetsCount : Nat
  /-- Packed properties of the type. -/
  bitfield : Nat
  token : Option Nat
  deriving DecidableEq, Repr

namespace TypeDefinition

/-- The attribute bits that have a meaning here: visibility, interface, abstract, sealed, special
name and serializable. -/
def knownFlags : Nat :=
  0x01 ||| 0x02 ||| 0x20 ||| 0x80 ||| 0x100 ||| 0x400 ||| 0x2000

/-- The attribute bit of an interface. -/
def interfaceBit : Nat :=
  5

/-- Whether the type is a value type. -/
def isValueType (row : TypeDefinition) : Bool :=
  row.bitfield.testBit 0

/-- Whether the type is an enumeration. -/
def isEnum (row : TypeDefinition) : Bool :=
  row.bitfield.testBit 1

/-- The attribute flags that have a meaning here. -/
def attributes (row : TypeDefinition) : Nat :=
  row.flags &&& knownFlags

/-- Whether the type is an interface. -/
def isInterface (row : TypeDefinition) : Bool :=
  row.attributes.testBit interfaceBit

end TypeDefinition

instance : Row TypeDefinition where
  kind := .typeDefinition
  ofRecord r := do
    return {
      nameIndex := ← r.uint32 .nameIndex
      namespaceIndex := ← r.uint32 .namespaceIndex
      byvalTypeIndex := ← r.index .byvalTypeIndex
      byrefTypeIndex := r.index? .byrefTypeIndex
      declaringTypeIndex := ← r.index .declaringTypeIndex
      parentIndex := ← r.index .parentIndex
      elementTypeIndex := ← r.index .elementTypeIndex
      genericContainerIndex := ← r.index .genericContainerIndex
      flags := ← r.uint32 .flags
      fieldStart := ← r.int32 .fieldStart
      methodStart := ← r.int32 .methodStart
      eventStart := ← r.int32 .eventStart
      propertyStart := ← r.int32 .propertyStart
      nestedTypesStart := ← r.int32 .nestedTypesStart
      interfacesStart := ← r.int32 .interfacesStart
      vtableStart := ← r.int32 .vtableStart
      interfaceOffsetsStart := ← r.int32 .interfaceOffsetsStart
      methodCount := ← r.uint16 .methodCount
      propertyCount := ← r.uint16 .propertyCount
      fieldCount := ← r.uint16 .fieldCount
      eventCount := ← r.uint16 .eventCount
      nestedTypeCount := ← r.uint16 .nestedTypeCount
      vtableCount := ← r.uint16 .vtableCount
      interfacesCount := ← r.uint16 .interfacesCount
      interfaceOffsetsCount := ← r.uint16 .interfaceOffsetsCount
      bitfield := ← r.uint32 .bitfield
      token := r.uint32? .token
    }

end GlobalMetadata
