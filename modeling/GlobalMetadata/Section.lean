import GlobalMetadata.Layout.Field

/-!
# Sections of the blob

Behind its header the blob consists of sections. The header says of each one where it starts and how
many bytes it has; which sections there are depends on the version.
-/

namespace GlobalMetadata

/-- The sections that are read, in the order in which the header declares them. -/
inductive SectionId
  /-- The table of string literals. -/
  | stringLiterals
  /-- The bytes of the string literals. -/
  | stringLiteralData
  /-- The heap of names. -/
  | strings
  /-- The event definitions. -/
  | events
  /-- The property definitions. -/
  | properties
  /-- The method definitions. -/
  | methods
  /-- The default values of parameters. -/
  | parameterDefaultValues
  /-- The default values of fields. -/
  | fieldDefaultValues
  /-- The bytes of the default values. -/
  | fieldAndParameterDefaultValueData
  /-- The unmanaged sizes of fields. -/
  | fieldMarshaledSizes
  /-- The parameter definitions. -/
  | parameters
  /-- The field definitions. -/
  | fields
  /-- The generic parameters. -/
  | genericParameters
  /-- The constraints of generic parameters, as indices. -/
  | genericParameterConstraints
  /-- The generic containers. -/
  | genericContainers
  /-- The nested types of all owners, as indices. -/
  | nestedTypes
  /-- The implemented interfaces, as indices. -/
  | interfaces
  /-- The methods of all dispatch tables, as indices. -/
  | vtableMethods
  /-- Where interfaces start in the dispatch tables. -/
  | interfaceOffsets
  /-- The type definitions. -/
  | typeDefinitions
  /-- The managed modules. -/
  | images
  /-- The assemblies. -/
  | assemblies
  /-- The references to fields. -/
  | fieldRefs
  /-- The references between assemblies, as indices. -/
  | referencedAssemblies
  /-- Which attribute types belong to which owner. -/
  | attributeTypeRanges
  /-- The attribute types, as indices. -/
  | attributeTypes
  /-- The bytes of the attributes. -/
  | attributeData
  /-- Which attribute bytes belong to which owner. -/
  | attributeDataRanges
  /-- The exported type definitions, as indices. -/
  | exportedTypeDefinitions
  deriving DecidableEq, Repr

namespace SectionId

/-- Every section, in order. -/
def all : List SectionId :=
  [.stringLiterals, .stringLiteralData, .strings, .events, .properties, .methods,
    .parameterDefaultValues, .fieldDefaultValues, .fieldAndParameterDefaultValueData,
    .fieldMarshaledSizes, .parameters, .fields, .genericParameters, .genericParameterConstraints,
    .genericContainers, .nestedTypes, .interfaces, .vtableMethods, .interfaceOffsets,
    .typeDefinitions, .images, .assemblies, .fieldRefs, .referencedAssemblies,
    .attributeTypeRanges, .attributeTypes, .attributeData, .attributeDataRanges,
    .exportedTypeDefinitions]

/-- The written name. -/
def name : SectionId → String
  | .stringLiterals => "StringLiterals"
  | .stringLiteralData => "StringLiteralData"
  | .strings => "Strings"
  | .events => "Events"
  | .properties => "Properties"
  | .methods => "Methods"
  | .parameterDefaultValues => "ParameterDefaultValues"
  | .fieldDefaultValues => "FieldDefaultValues"
  | .fieldAndParameterDefaultValueData => "FieldAndParameterDefaultValueData"
  | .fieldMarshaledSizes => "FieldMarshaledSizes"
  | .parameters => "Parameters"
  | .fields => "Fields"
  | .genericParameters => "GenericParameters"
  | .genericParameterConstraints => "GenericParameterConstraints"
  | .genericContainers => "GenericContainers"
  | .nestedTypes => "NestedTypes"
  | .interfaces => "Interfaces"
  | .vtableMethods => "VtableMethods"
  | .interfaceOffsets => "InterfaceOffsets"
  | .typeDefinitions => "TypeDefinitions"
  | .images => "Images"
  | .assemblies => "Assemblies"
  | .fieldRefs => "FieldRefs"
  | .referencedAssemblies => "ReferencedAssemblies"
  | .attributeTypeRanges => "AttributeTypeRanges"
  | .attributeTypes => "AttributeTypes"
  | .attributeData => "AttributeData"
  | .attributeDataRanges => "AttributeDataRanges"
  | .exportedTypeDefinitions => "ExportedTypeDefinitions"

/-- The name of the section in diagnostics. -/
def label : SectionId → String
  | .stringLiterals => "stringLiteral"
  | .stringLiteralData => "stringLiteralData"
  | .strings => "string"
  | .events => "events"
  | .properties => "properties"
  | .methods => "methods"
  | .parameterDefaultValues => "parameterDefaultValues"
  | .fieldDefaultValues => "fieldDefaultValues"
  | .fieldAndParameterDefaultValueData => "fieldAndParameterDefaultValueData"
  | .fieldMarshaledSizes => "fieldMarshaledSizes"
  | .parameters => "parameters"
  | .fields => "fields"
  | .genericParameters => "genericParameters"
  | .genericParameterConstraints => "genericParameterConstraints"
  | .genericContainers => "genericContainers"
  | .nestedTypes => "nestedTypes"
  | .interfaces => "interfaces"
  | .vtableMethods => "vtableMethods"
  | .interfaceOffsets => "interfaceOffsets"
  | .typeDefinitions => "typeDefinitions"
  | .images => "images"
  | .assemblies => "assemblies"
  | .fieldRefs => "fieldRefs"
  | .referencedAssemblies => "referencedAssemblies"
  | .attributeTypeRanges => "attributesInfo"
  | .attributeTypes => "attributeTypes"
  | .attributeData => "attributeData"
  | .attributeDataRanges => "attributeDataRange"
  | .exportedTypeDefinitions => "exportedTypeDefinitions"

/-- The header field that holds the start of the section. -/
def offsetField : SectionId → Field
  | .stringLiterals => .stringLiteralOffset
  | .stringLiteralData => .stringLiteralDataOffset
  | .strings => .stringOffset
  | .events => .eventsOffset
  | .properties => .propertiesOffset
  | .methods => .methodsOffset
  | .parameterDefaultValues => .parameterDefaultValuesOffset
  | .fieldDefaultValues => .fieldDefaultValuesOffset
  | .fieldAndParameterDefaultValueData => .fieldAndParameterDefaultValueDataOffset
  | .fieldMarshaledSizes => .fieldMarshaledSizesOffset
  | .parameters => .parametersOffset
  | .fields => .fieldsOffset
  | .genericParameters => .genericParametersOffset
  | .genericParameterConstraints => .genericParameterConstraintsOffset
  | .genericContainers => .genericContainersOffset
  | .nestedTypes => .nestedTypesOffset
  | .interfaces => .interfacesOffset
  | .vtableMethods => .vtableMethodsOffset
  | .interfaceOffsets => .interfaceOffsetsOffset
  | .typeDefinitions => .typeDefinitionsOffset
  | .images => .imagesOffset
  | .assemblies => .assembliesOffset
  | .fieldRefs => .fieldRefsOffset
  | .referencedAssemblies => .referencedAssembliesOffset
  | .attributeTypeRanges => .attributesInfoOffset
  | .attributeTypes => .attributeTypesOffset
  | .attributeData => .attributeDataOffset
  | .attributeDataRanges => .attributeDataRangeOffset
  | .exportedTypeDefinitions => .exportedTypeDefinitionsOffset

/-- The header field that holds the size of the section. -/
def sizeField : SectionId → Field
  | .stringLiterals => .stringLiteralSize
  | .stringLiteralData => .stringLiteralDataSize
  | .strings => .stringSize
  | .events => .eventsSize
  | .properties => .propertiesSize
  | .methods => .methodsSize
  | .parameterDefaultValues => .parameterDefaultValuesSize
  | .fieldDefaultValues => .fieldDefaultValuesSize
  | .fieldAndParameterDefaultValueData => .fieldAndParameterDefaultValueDataSize
  | .fieldMarshaledSizes => .fieldMarshaledSizesSize
  | .parameters => .parametersSize
  | .fields => .fieldsSize
  | .genericParameters => .genericParametersSize
  | .genericParameterConstraints => .genericParameterConstraintsSize
  | .genericContainers => .genericContainersSize
  | .nestedTypes => .nestedTypesSize
  | .interfaces => .interfacesSize
  | .vtableMethods => .vtableMethodsSize
  | .interfaceOffsets => .interfaceOffsetsSize
  | .typeDefinitions => .typeDefinitionsSize
  | .images => .imagesSize
  | .assemblies => .assembliesSize
  | .fieldRefs => .fieldRefsSize
  | .referencedAssemblies => .referencedAssembliesSize
  | .attributeTypeRanges => .attributesInfoCount
  | .attributeTypes => .attributeTypesCount
  | .attributeData => .attributeDataSize
  | .attributeDataRanges => .attributeDataRangeSize
  | .exportedTypeDefinitions => .exportedTypeDefinitionsSize

end SectionId

/-- The place of a section inside the blob, in bytes. -/
structure Section where
  offset : Nat
  /-- How many bytes it has. -/
  size : Nat
  deriving DecidableEq, Repr

end GlobalMetadata
