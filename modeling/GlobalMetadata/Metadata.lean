import GlobalMetadata.Heap
import GlobalMetadata.Registration
import GlobalMetadata.Row.Generic
import GlobalMetadata.Row.Image
import GlobalMetadata.Row.Member
import GlobalMetadata.Row.TypeDefinition
import GlobalMetadata.Table

/-!
# Decoded metadata

`Metadata.decode` turns a blob and a native image into flat tables. No index is followed and no name
is looked up; that is left to the type graph. Whatever cannot be read ends the decoding: the
sections are read in a fixed order, and the first error is the result.
-/

namespace GlobalMetadata

/-- All tables of a blob, with the registration tables of its image. -/
structure Metadata where
  /-- The versions that everything was read for. -/
  pair : VersionPair
  /-- The header of the blob. -/
  header : Header
  strings : StringHeap
  literals : LiteralTable
  images : Array ImageDefinition
  assemblies : Array AssemblyDefinition
  typeDefinitions : Array TypeDefinition
  /-- The methods of all types. -/
  methods : Array MethodDefinition
  /-- The parameters of all methods. -/
  parameters : Array ParameterDefinition
  /-- The fields of all types. -/
  fields : Array FieldDefinition
  /-- The properties of all types. -/
  properties : Array PropertyDefinition
  /-- The events of all types. -/
  events : Array EventDefinition
  /-- The lists of generic parameters. -/
  genericContainers : Array GenericContainer
  genericParameters : Array GenericParameter
  genericParameterConstraints : Array Int
  nestedTypes : Array Int
  /-- The interfaces of all types. -/
  interfaces : Array Int
  /-- The dispatch tables of all types. -/
  vtableMethods : Array Int
  fieldDefaultValues : Array FieldDefaultValue
  parameterDefaultValues : Array ParameterDefaultValue
  defaultValueData : ByteArray
  /-- The unmanaged sizes of fields. -/
  fieldMarshaledSizes : Array FieldMarshaledSize
  /-- Which attribute types belong to which owner. -/
  attributeTypeRanges : Array CustomAttributeTypeRange
  attributeTypes : Array Int
  /-- Which attribute bytes belong to which owner. -/
  attributeDataRanges : Array CustomAttributeDataRange
  attributeData : ByteArray
  fieldRefs : Array FieldRef
  /-- The references between assemblies. -/
  referencedAssemblies : Array Int
  exportedTypeDefinitions : Array Int
  /-- The registration tables of the image. -/
  registration : Registration

namespace Metadata

/-- The bytes of a section, none for a section that the version does not have. -/
def sectionBytes (data : ByteArray) (header : Header) (id : SectionId) :
    Except Error ByteArray := do
  match ← header.locate id data.size with
  | some place => return data.extract place.offset (place.offset + place.size)
  | none => return ByteArray.empty

/-- **Decoding.** The tables of a blob and of its native image, for a given pair of versions. -/
def decode (data : ByteArray) (source : RegistrationSource) (pair : VersionPair) :
    Except Error Metadata := do
  pair.ensureSupported
  let header ← Header.read data pair
  let table (α : Type) [Row α] (id : SectionId) : Except Error (Array α) := do
    return (← readTable α data id (← header.locate id data.size) pair).toArray
  let indices (id : SectionId) : Except Error (Array Int) := do
    return (← readIndices data id (← header.locate id data.size)).toArray
  let bytes := sectionBytes data header
  return {
    pair := pair
    header := header
    literals := ⟨← table StringLiteral .stringLiterals, ← bytes .stringLiteralData⟩
    strings := ⟨← bytes .strings⟩
    images := ← table ImageDefinition .images
    assemblies := ← table AssemblyDefinition .assemblies
    typeDefinitions := ← table TypeDefinition .typeDefinitions
    methods := ← table MethodDefinition .methods
    parameters := ← table ParameterDefinition .parameters
    fields := ← table FieldDefinition .fields
    properties := ← table PropertyDefinition .properties
    events := ← table EventDefinition .events
    genericContainers := ← table GenericContainer .genericContainers
    genericParameters := ← table GenericParameter .genericParameters
    genericParameterConstraints := ← indices .genericParameterConstraints
    nestedTypes := ← indices .nestedTypes
    interfaces := ← indices .interfaces
    vtableMethods := ← indices .vtableMethods
    fieldDefaultValues := ← table FieldDefaultValue .fieldDefaultValues
    parameterDefaultValues := ← table ParameterDefaultValue .parameterDefaultValues
    defaultValueData := ← bytes .fieldAndParameterDefaultValueData
    fieldMarshaledSizes := ← table FieldMarshaledSize .fieldMarshaledSizes
    attributeTypeRanges := ← table CustomAttributeTypeRange .attributeTypeRanges
    attributeTypes := ← indices .attributeTypes
    attributeDataRanges := ← table CustomAttributeDataRange .attributeDataRanges
    attributeData := ← bytes .attributeData
    fieldRefs := ← table FieldRef .fieldRefs
    referencedAssemblies := ← indices .referencedAssemblies
    exportedTypeDefinitions := ← indices .exportedTypeDefinitions
    registration := ← Registration.read source pair
  }

/-- The name at a place of the string heap. -/
def string (metadata : Metadata) (index : Nat) : Except Error String :=
  metadata.strings.get index

/-- The name of a managed module, if it can be read. -/
def imageName (metadata : Metadata) (image : Nat) : Option String := do
  let row ← metadata.images[image]?
  (metadata.strings.get row.nameIndex).toOption

end Metadata

end GlobalMetadata
