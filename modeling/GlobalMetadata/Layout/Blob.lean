import GlobalMetadata.Layout.Basic

/-!
# Structures of the metadata blob

The declared fields of every structure that occurs in the blob, in the order in which they are
stored. A field without windows belongs to every revision; the others are there in the revisions
that one of their windows holds. The windows refer to the metadata axis.
-/

namespace GlobalMetadata.Layout

open FieldSpec Window

/-- The header of the blob: its magic number, its integer version and the place of every section. -/
def metadataHeader : List FieldSpec :=
  [int32 .sanity, int32 .version, int32 .stringLiteralOffset, int32 .stringLiteralSize,
    int32 .stringLiteralDataOffset, int32 .stringLiteralDataSize, int32 .stringOffset,
    int32 .stringSize, int32 .eventsOffset, int32 .eventsSize, int32 .propertiesOffset,
    int32 .propertiesSize, int32 .methodsOffset, int32 .methodsSize,
    int32 .parameterDefaultValuesOffset, int32 .parameterDefaultValuesSize,
    int32 .fieldDefaultValuesOffset, int32 .fieldDefaultValuesSize,
    int32 .fieldAndParameterDefaultValueDataOffset, int32 .fieldAndParameterDefaultValueDataSize,
    int32 .fieldMarshaledSizesOffset, int32 .fieldMarshaledSizesSize, int32 .parametersOffset,
    int32 .parametersSize, int32 .fieldsOffset, int32 .fieldsSize, int32 .genericParametersOffset,
    int32 .genericParametersSize, int32 .genericParameterConstraintsOffset,
    int32 .genericParameterConstraintsSize, int32 .genericContainersOffset,
    int32 .genericContainersSize, int32 .nestedTypesOffset, int32 .nestedTypesSize,
    int32 .interfacesOffset, int32 .interfacesSize, int32 .vtableMethodsOffset,
    int32 .vtableMethodsSize, int32 .interfaceOffsetsOffset, int32 .interfaceOffsetsSize,
    int32 .typeDefinitionsOffset, int32 .typeDefinitionsSize,
    int32 .rgctxEntriesOffset [upTo ⟨24, 1⟩], int32 .rgctxEntriesCount [upTo ⟨24, 1⟩],
    int32 .imagesOffset, int32 .imagesSize, int32 .assembliesOffset, int32 .assembliesSize,
    int32 .metadataUsageListsOffset [between ⟨19, 0⟩ ⟨24, 5⟩],
    int32 .metadataUsageListsCount [between ⟨19, 0⟩ ⟨24, 5⟩],
    int32 .metadataUsagePairsOffset [between ⟨19, 0⟩ ⟨24, 5⟩],
    int32 .metadataUsagePairsCount [between ⟨19, 0⟩ ⟨24, 5⟩],
    int32 .fieldRefsOffset [since ⟨19, 0⟩], int32 .fieldRefsSize [since ⟨19, 0⟩],
    int32 .referencedAssembliesOffset [since ⟨20, 0⟩],
    int32 .referencedAssembliesSize [since ⟨20, 0⟩],
    int32 .attributesInfoOffset [between ⟨21, 0⟩ ⟨27, 2⟩],
    int32 .attributesInfoCount [between ⟨21, 0⟩ ⟨27, 2⟩],
    int32 .attributeTypesOffset [between ⟨21, 0⟩ ⟨27, 2⟩],
    int32 .attributeTypesCount [between ⟨21, 0⟩ ⟨27, 2⟩],
    int32 .attributeDataOffset [since ⟨29, 0⟩], int32 .attributeDataSize [since ⟨29, 0⟩],
    int32 .attributeDataRangeOffset [since ⟨29, 0⟩],
    int32 .attributeDataRangeSize [since ⟨29, 0⟩],
    int32 .unresolvedVirtualCallParameterTypesOffset [since ⟨22, 0⟩],
    int32 .unresolvedVirtualCallParameterTypesSize [since ⟨22, 0⟩],
    int32 .unresolvedVirtualCallParameterRangesOffset [since ⟨22, 0⟩],
    int32 .unresolvedVirtualCallParameterRangesSize [since ⟨22, 0⟩],
    int32 .windowsRuntimeTypeNamesOffset [since ⟨23, 0⟩],
    int32 .windowsRuntimeTypeNamesSize [since ⟨23, 0⟩],
    int32 .windowsRuntimeStringsOffset [since ⟨27, 0⟩],
    int32 .windowsRuntimeStringsSize [since ⟨27, 0⟩],
    int32 .exportedTypeDefinitionsOffset [since ⟨24, 0⟩],
    int32 .exportedTypeDefinitionsSize [since ⟨24, 0⟩]]

/-- A managed module: its name and the run of type definitions that it declares. -/
def imageDefinition : List FieldSpec :=
  [int32 .nameIndex, int32 .assemblyIndex, int32 .typeStart, int32 .typeCount,
    int32 .exportedTypeStart [since ⟨24, 0⟩], int32 .exportedTypeCount [since ⟨24, 0⟩],
    int32 .entryPointIndex, int32 .token [since ⟨19, 0⟩],
    int32 .customAttributeStart [since ⟨24, 1⟩], int32 .customAttributeCount [since ⟨24, 1⟩]]

/-- An assembly, with its name record embedded. -/
def assemblyDefinition : List FieldSpec :=
  [int32 .imageIndex, int32 .token [since ⟨24, 1⟩], int32 .customAttributeIndex [upTo ⟨24, 0⟩],
    int32 .referencedAssemblyStart [since ⟨20, 0⟩],
    int32 .referencedAssemblyCount [since ⟨20, 0⟩], int32 .nameIndex, int32 .cultureIndex,
    int32 .hashValueIndex [upTo ⟨24, 3⟩], int32 .publicKeyIndex, int32 .hashAlg, int32 .hashLen,
    int32 .flags, int32 .major, int32 .minor, int32 .build, int32 .revision,
    int64 .publicKeyToken]

/-- A class, value type, enumeration or interface, and where its members stand. -/
def typeDefinition : List FieldSpec :=
  [int32 .nameIndex, int32 .namespaceIndex, int32 .customAttributeIndex [upTo ⟨24, 0⟩],
    int32 .byvalTypeIndex, int32 .byrefTypeIndex [upTo ⟨24, 5⟩], int32 .declaringTypeIndex,
    int32 .parentIndex, int32 .elementTypeIndex, int32 .rgctxStartIndex [upTo ⟨24, 1⟩],
    int32 .rgctxCount [upTo ⟨24, 1⟩], int32 .genericContainerIndex,
    int32 .delegateWrapperFromManagedToNativeIndex [upTo ⟨22, 0⟩],
    int32 .marshalingFunctionsIndex [upTo ⟨22, 0⟩],
    int32 .ccwFunctionIndex [between ⟨21, 0⟩ ⟨22, 0⟩], int32 .guidIndex [between ⟨21, 0⟩ ⟨22, 0⟩],
    int32 .flags, int32 .fieldStart, int32 .methodStart, int32 .eventStart, int32 .propertyStart,
    int32 .nestedTypesStart, int32 .interfacesStart, int32 .vtableStart,
    int32 .interfaceOffsetsStart, int16 .methodCount, int16 .propertyCount, int16 .fieldCount,
    int16 .eventCount, int16 .nestedTypeCount, int16 .vtableCount, int16 .interfacesCount,
    int16 .interfaceOffsetsCount, int32 .bitfield, int32 .token [since ⟨19, 0⟩]]

/-- A method and where its parameters stand. -/
def methodDefinition : List FieldSpec :=
  [int32 .nameIndex, int32 .declaringType, int32 .returnType,
    int32 .returnParameterToken [since ⟨31, 0⟩], int32 .parameterStart,
    int32 .customAttributeIndex [upTo ⟨24, 0⟩], int32 .genericContainerIndex,
    int32 .methodIndex [upTo ⟨24, 1⟩], int32 .invokerIndex [upTo ⟨24, 1⟩],
    int32 .delegateWrapperIndex [upTo ⟨24, 1⟩], int32 .rgctxStartIndex [upTo ⟨24, 1⟩],
    int32 .rgctxCount [upTo ⟨24, 1⟩], int32 .token, int16 .flags, int16 .iflags, int16 .slot,
    int16 .parameterCount]

/-- A parameter of a method. -/
def parameterDefinition : List FieldSpec :=
  [int32 .nameIndex, int32 .token, int32 .customAttributeIndex [upTo ⟨24, 0⟩], int32 .typeIndex]

/-- A field of a type. -/
def fieldDefinition : List FieldSpec :=
  [int32 .nameIndex, int32 .typeIndex, int32 .customAttributeIndex [upTo ⟨24, 0⟩],
    int32 .token [since ⟨19, 0⟩]]

/-- A property of a type. -/
def propertyDefinition : List FieldSpec :=
  [int32 .nameIndex, int32 .get, int32 .set, int32 .attrs,
    int32 .customAttributeIndex [upTo ⟨24, 0⟩], int32 .token [since ⟨19, 0⟩]]

/-- An event of a type. -/
def eventDefinition : List FieldSpec :=
  [int32 .nameIndex, int32 .typeIndex, int32 .add, int32 .remove, int32 .raise,
    int32 .customAttributeIndex [upTo ⟨24, 0⟩], int32 .token [since ⟨19, 0⟩]]

/-- The default value of a field. -/
def fieldDefaultValue : List FieldSpec :=
  [int32 .fieldIndex, int32 .typeIndex, int32 .dataIndex]

/-- The default value of a parameter. -/
def parameterDefaultValue : List FieldSpec :=
  [int32 .parameterIndex, int32 .typeIndex, int32 .dataIndex]

/-- The size of a field in unmanaged memory. -/
def fieldMarshaledSize : List FieldSpec :=
  [int32 .fieldIndex, int32 .typeIndex, int32 .size]

/-- The generic parameters that one type or method declares. -/
def genericContainer : List FieldSpec :=
  [int32 .ownerIndex, int32 .typeArgc, int32 .isMethod, int32 .genericParameterStart]

/-- A generic parameter. -/
def genericParameter : List FieldSpec :=
  [int32 .ownerIndex, int32 .nameIndex, int16 .constraintsStart, int16 .constraintsCount,
    int16 .num, int16 .flags]

/-- The attribute types of one owner. -/
def customAttributeTypeRange : List FieldSpec :=
  [int32 .token [since ⟨24, 1⟩], int32 .start, int32 .count]

/-- Where the attribute data of one owner starts. -/
def customAttributeDataRange : List FieldSpec :=
  [int32 .token, int32 .startOffset]

/-- A field, named by its owner and its position there. -/
def fieldRef : List FieldSpec :=
  [int32 .typeIndex, int32 .fieldIndex]

/-- A string literal: its length and its place in the literal data. -/
def stringLiteral : List FieldSpec :=
  [int32 .length, int32 .dataIndex]

end GlobalMetadata.Layout
