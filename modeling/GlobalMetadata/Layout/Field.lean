/-!
# Fields of binary structures

The names under which the values of a structure are known. One name may occur in several
structures: every definition has a `nameIndex`, most have a `token`.
-/

namespace GlobalMetadata

/-- The name of a field of some structure of the format. -/
inductive Field
  | sanity | version | stringLiteralOffset | stringLiteralSize | stringLiteralDataOffset
  | stringLiteralDataSize | stringOffset | stringSize | eventsOffset | eventsSize
  | propertiesOffset | propertiesSize | methodsOffset | methodsSize
  | parameterDefaultValuesOffset | parameterDefaultValuesSize | fieldDefaultValuesOffset
  | fieldDefaultValuesSize | fieldAndParameterDefaultValueDataOffset
  | fieldAndParameterDefaultValueDataSize | fieldMarshaledSizesOffset | fieldMarshaledSizesSize
  | parametersOffset | parametersSize | fieldsOffset | fieldsSize | genericParametersOffset
  | genericParametersSize | genericParameterConstraintsOffset | genericParameterConstraintsSize
  | genericContainersOffset | genericContainersSize | nestedTypesOffset | nestedTypesSize
  | interfacesOffset | interfacesSize | vtableMethodsOffset | vtableMethodsSize
  | interfaceOffsetsOffset | interfaceOffsetsSize | typeDefinitionsOffset | typeDefinitionsSize
  | rgctxEntriesOffset | rgctxEntriesCount | imagesOffset | imagesSize | assembliesOffset
  | assembliesSize | metadataUsageListsOffset | metadataUsageListsCount
  | metadataUsagePairsOffset | metadataUsagePairsCount | fieldRefsOffset | fieldRefsSize
  | referencedAssembliesOffset | referencedAssembliesSize | attributesInfoOffset
  | attributesInfoCount | attributeTypesOffset | attributeTypesCount | attributeDataOffset
  | attributeDataSize | attributeDataRangeOffset | attributeDataRangeSize
  | unresolvedVirtualCallParameterTypesOffset | unresolvedVirtualCallParameterTypesSize
  | unresolvedVirtualCallParameterRangesOffset | unresolvedVirtualCallParameterRangesSize
  | windowsRuntimeTypeNamesOffset | windowsRuntimeTypeNamesSize | windowsRuntimeStringsOffset
  | windowsRuntimeStringsSize | exportedTypeDefinitionsOffset | exportedTypeDefinitionsSize
  | nameIndex | assemblyIndex | typeStart | typeCount | exportedTypeStart | exportedTypeCount
  | entryPointIndex | token | customAttributeStart | customAttributeCount | imageIndex
  | customAttributeIndex | referencedAssemblyStart | referencedAssemblyCount | cultureIndex
  | hashValueIndex | publicKeyIndex | hashAlg | hashLen | flags | major | minor | build
  | revision | publicKeyToken | namespaceIndex | byvalTypeIndex | byrefTypeIndex
  | declaringTypeIndex | parentIndex | elementTypeIndex | rgctxStartIndex | rgctxCount
  | genericContainerIndex | delegateWrapperFromManagedToNativeIndex | marshalingFunctionsIndex
  | ccwFunctionIndex | guidIndex | fieldStart | methodStart | eventStart | propertyStart
  | nestedTypesStart | interfacesStart | vtableStart | interfaceOffsetsStart | methodCount
  | propertyCount | fieldCount | eventCount | nestedTypeCount | vtableCount | interfacesCount
  | interfaceOffsetsCount | bitfield | declaringType | returnType | returnParameterToken
  | parameterStart | methodIndex | invokerIndex | delegateWrapperIndex | iflags | slot
  | parameterCount | typeIndex | get | set | attrs | add | remove | raise | fieldIndex
  | dataIndex | parameterIndex | size | ownerIndex | typeArgc | isMethod | genericParameterStart
  | constraintsStart | constraintsCount | num | start | count | startOffset | length
  | methodPointersCount | methodPointers | delegateWrappersFromNativeToManagedCount
  | delegateWrappersFromNativeToManaged | reversePInvokeWrapperCount | reversePInvokeWrappers
  | delegateWrappersFromManagedToNativeCount | delegateWrappersFromManagedToNative
  | marshalingFunctionsCount | marshalingFunctions | ccwMarshalingFunctionsCount
  | ccwMarshalingFunctions | genericMethodPointersCount | genericMethodPointers
  | genericAdjustorThunks | invokerPointersCount | invokerPointers | customAttributeGenerators
  | guidCount | guids | unresolvedVirtualCallCount | unresolvedVirtualCallPointers
  | unresolvedInstanceCallPointers | unresolvedStaticCallPointers | interopDataCount
  | interopData | windowsRuntimeFactoryCount | windowsRuntimeFactoryTable | codeGenModulesCount
  | codeGenModules | genericClassesCount | genericClasses | genericInstsCount | genericInsts
  | genericMethodTableCount | genericMethodTable | typesCount | types | methodSpecsCount
  | methodSpecs | methodReferencesCount | methodReferences | fieldOffsetsCount | fieldOffsets
  | typeDefinitionsSizesCount | typeDefinitionsSizes | metadataUsagesCount | metadataUsages
  | datapoint | bits | typeDefinitionIndex | type | classInst | methodInst | cachedClass
  | typeArgv | etype | rank | numsizes | numlobounds | sizes | lobounds | methodDefinitionIndex
  | classIndexIndex | methodIndexIndex | genericMethodIndex | adjustorThunkIndex | moduleName
  | methodPointerCount | adjustorThunkCount | adjustorThunks | invokerIndices
  | reversePInvokeWrapperIndices | rgctxRangesCount | rgctxRanges | rgctxsCount | rgctxs
  | debuggerMetadata | customAttributeCacheGenerator | moduleInitializer
  | staticConstructorTypeIndices | metadataRegistration | codeRegistration
  deriving DecidableEq, Repr

namespace Field

/-- The written name. -/
def name : Field → String
  | .sanity => "sanity"
  | .version => "version"
  | .stringLiteralOffset => "stringLiteralOffset"
  | .stringLiteralSize => "stringLiteralSize"
  | .stringLiteralDataOffset => "stringLiteralDataOffset"
  | .stringLiteralDataSize => "stringLiteralDataSize"
  | .stringOffset => "stringOffset"
  | .stringSize => "stringSize"
  | .eventsOffset => "eventsOffset"
  | .eventsSize => "eventsSize"
  | .propertiesOffset => "propertiesOffset"
  | .propertiesSize => "propertiesSize"
  | .methodsOffset => "methodsOffset"
  | .methodsSize => "methodsSize"
  | .parameterDefaultValuesOffset => "parameterDefaultValuesOffset"
  | .parameterDefaultValuesSize => "parameterDefaultValuesSize"
  | .fieldDefaultValuesOffset => "fieldDefaultValuesOffset"
  | .fieldDefaultValuesSize => "fieldDefaultValuesSize"
  | .fieldAndParameterDefaultValueDataOffset => "fieldAndParameterDefaultValueDataOffset"
  | .fieldAndParameterDefaultValueDataSize => "fieldAndParameterDefaultValueDataSize"
  | .fieldMarshaledSizesOffset => "fieldMarshaledSizesOffset"
  | .fieldMarshaledSizesSize => "fieldMarshaledSizesSize"
  | .parametersOffset => "parametersOffset"
  | .parametersSize => "parametersSize"
  | .fieldsOffset => "fieldsOffset"
  | .fieldsSize => "fieldsSize"
  | .genericParametersOffset => "genericParametersOffset"
  | .genericParametersSize => "genericParametersSize"
  | .genericParameterConstraintsOffset => "genericParameterConstraintsOffset"
  | .genericParameterConstraintsSize => "genericParameterConstraintsSize"
  | .genericContainersOffset => "genericContainersOffset"
  | .genericContainersSize => "genericContainersSize"
  | .nestedTypesOffset => "nestedTypesOffset"
  | .nestedTypesSize => "nestedTypesSize"
  | .interfacesOffset => "interfacesOffset"
  | .interfacesSize => "interfacesSize"
  | .vtableMethodsOffset => "vtableMethodsOffset"
  | .vtableMethodsSize => "vtableMethodsSize"
  | .interfaceOffsetsOffset => "interfaceOffsetsOffset"
  | .interfaceOffsetsSize => "interfaceOffsetsSize"
  | .typeDefinitionsOffset => "typeDefinitionsOffset"
  | .typeDefinitionsSize => "typeDefinitionsSize"
  | .rgctxEntriesOffset => "rgctxEntriesOffset"
  | .rgctxEntriesCount => "rgctxEntriesCount"
  | .imagesOffset => "imagesOffset"
  | .imagesSize => "imagesSize"
  | .assembliesOffset => "assembliesOffset"
  | .assembliesSize => "assembliesSize"
  | .metadataUsageListsOffset => "metadataUsageListsOffset"
  | .metadataUsageListsCount => "metadataUsageListsCount"
  | .metadataUsagePairsOffset => "metadataUsagePairsOffset"
  | .metadataUsagePairsCount => "metadataUsagePairsCount"
  | .fieldRefsOffset => "fieldRefsOffset"
  | .fieldRefsSize => "fieldRefsSize"
  | .referencedAssembliesOffset => "referencedAssembliesOffset"
  | .referencedAssembliesSize => "referencedAssembliesSize"
  | .attributesInfoOffset => "attributesInfoOffset"
  | .attributesInfoCount => "attributesInfoCount"
  | .attributeTypesOffset => "attributeTypesOffset"
  | .attributeTypesCount => "attributeTypesCount"
  | .attributeDataOffset => "attributeDataOffset"
  | .attributeDataSize => "attributeDataSize"
  | .attributeDataRangeOffset => "attributeDataRangeOffset"
  | .attributeDataRangeSize => "attributeDataRangeSize"
  | .unresolvedVirtualCallParameterTypesOffset => "unresolvedVirtualCallParameterTypesOffset"
  | .unresolvedVirtualCallParameterTypesSize => "unresolvedVirtualCallParameterTypesSize"
  | .unresolvedVirtualCallParameterRangesOffset => "unresolvedVirtualCallParameterRangesOffset"
  | .unresolvedVirtualCallParameterRangesSize => "unresolvedVirtualCallParameterRangesSize"
  | .windowsRuntimeTypeNamesOffset => "windowsRuntimeTypeNamesOffset"
  | .windowsRuntimeTypeNamesSize => "windowsRuntimeTypeNamesSize"
  | .windowsRuntimeStringsOffset => "windowsRuntimeStringsOffset"
  | .windowsRuntimeStringsSize => "windowsRuntimeStringsSize"
  | .exportedTypeDefinitionsOffset => "exportedTypeDefinitionsOffset"
  | .exportedTypeDefinitionsSize => "exportedTypeDefinitionsSize"
  | .nameIndex => "nameIndex"
  | .assemblyIndex => "assemblyIndex"
  | .typeStart => "typeStart"
  | .typeCount => "typeCount"
  | .exportedTypeStart => "exportedTypeStart"
  | .exportedTypeCount => "exportedTypeCount"
  | .entryPointIndex => "entryPointIndex"
  | .token => "token"
  | .customAttributeStart => "customAttributeStart"
  | .customAttributeCount => "customAttributeCount"
  | .imageIndex => "imageIndex"
  | .customAttributeIndex => "customAttributeIndex"
  | .referencedAssemblyStart => "referencedAssemblyStart"
  | .referencedAssemblyCount => "referencedAssemblyCount"
  | .cultureIndex => "cultureIndex"
  | .hashValueIndex => "hashValueIndex"
  | .publicKeyIndex => "publicKeyIndex"
  | .hashAlg => "hashAlg"
  | .hashLen => "hashLen"
  | .flags => "flags"
  | .major => "major"
  | .minor => "minor"
  | .build => "build"
  | .revision => "revision"
  | .publicKeyToken => "publicKeyToken"
  | .namespaceIndex => "namespaceIndex"
  | .byvalTypeIndex => "byvalTypeIndex"
  | .byrefTypeIndex => "byrefTypeIndex"
  | .declaringTypeIndex => "declaringTypeIndex"
  | .parentIndex => "parentIndex"
  | .elementTypeIndex => "elementTypeIndex"
  | .rgctxStartIndex => "rgctxStartIndex"
  | .rgctxCount => "rgctxCount"
  | .genericContainerIndex => "genericContainerIndex"
  | .delegateWrapperFromManagedToNativeIndex => "delegateWrapperFromManagedToNativeIndex"
  | .marshalingFunctionsIndex => "marshalingFunctionsIndex"
  | .ccwFunctionIndex => "ccwFunctionIndex"
  | .guidIndex => "guidIndex"
  | .fieldStart => "fieldStart"
  | .methodStart => "methodStart"
  | .eventStart => "eventStart"
  | .propertyStart => "propertyStart"
  | .nestedTypesStart => "nestedTypesStart"
  | .interfacesStart => "interfacesStart"
  | .vtableStart => "vtableStart"
  | .interfaceOffsetsStart => "interfaceOffsetsStart"
  | .methodCount => "methodCount"
  | .propertyCount => "propertyCount"
  | .fieldCount => "fieldCount"
  | .eventCount => "eventCount"
  | .nestedTypeCount => "nestedTypeCount"
  | .vtableCount => "vtableCount"
  | .interfacesCount => "interfacesCount"
  | .interfaceOffsetsCount => "interfaceOffsetsCount"
  | .bitfield => "bitfield"
  | .declaringType => "declaringType"
  | .returnType => "returnType"
  | .returnParameterToken => "returnParameterToken"
  | .parameterStart => "parameterStart"
  | .methodIndex => "methodIndex"
  | .invokerIndex => "invokerIndex"
  | .delegateWrapperIndex => "delegateWrapperIndex"
  | .iflags => "iflags"
  | .slot => "slot"
  | .parameterCount => "parameterCount"
  | .typeIndex => "typeIndex"
  | .get => "get"
  | .set => "set"
  | .attrs => "attrs"
  | .add => "add"
  | .remove => "remove"
  | .raise => "raise"
  | .fieldIndex => "fieldIndex"
  | .dataIndex => "dataIndex"
  | .parameterIndex => "parameterIndex"
  | .size => "size"
  | .ownerIndex => "ownerIndex"
  | .typeArgc => "typeArgc"
  | .isMethod => "isMethod"
  | .genericParameterStart => "genericParameterStart"
  | .constraintsStart => "constraintsStart"
  | .constraintsCount => "constraintsCount"
  | .num => "num"
  | .start => "start"
  | .count => "count"
  | .startOffset => "startOffset"
  | .length => "length"
  | .methodPointersCount => "methodPointersCount"
  | .methodPointers => "methodPointers"
  | .delegateWrappersFromNativeToManagedCount => "delegateWrappersFromNativeToManagedCount"
  | .delegateWrappersFromNativeToManaged => "delegateWrappersFromNativeToManaged"
  | .reversePInvokeWrapperCount => "reversePInvokeWrapperCount"
  | .reversePInvokeWrappers => "reversePInvokeWrappers"
  | .delegateWrappersFromManagedToNativeCount => "delegateWrappersFromManagedToNativeCount"
  | .delegateWrappersFromManagedToNative => "delegateWrappersFromManagedToNative"
  | .marshalingFunctionsCount => "marshalingFunctionsCount"
  | .marshalingFunctions => "marshalingFunctions"
  | .ccwMarshalingFunctionsCount => "ccwMarshalingFunctionsCount"
  | .ccwMarshalingFunctions => "ccwMarshalingFunctions"
  | .genericMethodPointersCount => "genericMethodPointersCount"
  | .genericMethodPointers => "genericMethodPointers"
  | .genericAdjustorThunks => "genericAdjustorThunks"
  | .invokerPointersCount => "invokerPointersCount"
  | .invokerPointers => "invokerPointers"
  | .customAttributeGenerators => "customAttributeGenerators"
  | .guidCount => "guidCount"
  | .guids => "guids"
  | .unresolvedVirtualCallCount => "unresolvedVirtualCallCount"
  | .unresolvedVirtualCallPointers => "unresolvedVirtualCallPointers"
  | .unresolvedInstanceCallPointers => "unresolvedInstanceCallPointers"
  | .unresolvedStaticCallPointers => "unresolvedStaticCallPointers"
  | .interopDataCount => "interopDataCount"
  | .interopData => "interopData"
  | .windowsRuntimeFactoryCount => "windowsRuntimeFactoryCount"
  | .windowsRuntimeFactoryTable => "windowsRuntimeFactoryTable"
  | .codeGenModulesCount => "codeGenModulesCount"
  | .codeGenModules => "codeGenModules"
  | .genericClassesCount => "genericClassesCount"
  | .genericClasses => "genericClasses"
  | .genericInstsCount => "genericInstsCount"
  | .genericInsts => "genericInsts"
  | .genericMethodTableCount => "genericMethodTableCount"
  | .genericMethodTable => "genericMethodTable"
  | .typesCount => "typesCount"
  | .types => "types"
  | .methodSpecsCount => "methodSpecsCount"
  | .methodSpecs => "methodSpecs"
  | .methodReferencesCount => "methodReferencesCount"
  | .methodReferences => "methodReferences"
  | .fieldOffsetsCount => "fieldOffsetsCount"
  | .fieldOffsets => "fieldOffsets"
  | .typeDefinitionsSizesCount => "typeDefinitionsSizesCount"
  | .typeDefinitionsSizes => "typeDefinitionsSizes"
  | .metadataUsagesCount => "metadataUsagesCount"
  | .metadataUsages => "metadataUsages"
  | .datapoint => "datapoint"
  | .bits => "bits"
  | .typeDefinitionIndex => "typeDefinitionIndex"
  | .type => "type"
  | .classInst => "classInst"
  | .methodInst => "methodInst"
  | .cachedClass => "cachedClass"
  | .typeArgv => "typeArgv"
  | .etype => "etype"
  | .rank => "rank"
  | .numsizes => "numsizes"
  | .numlobounds => "numlobounds"
  | .sizes => "sizes"
  | .lobounds => "lobounds"
  | .methodDefinitionIndex => "methodDefinitionIndex"
  | .classIndexIndex => "classIndexIndex"
  | .methodIndexIndex => "methodIndexIndex"
  | .genericMethodIndex => "genericMethodIndex"
  | .adjustorThunkIndex => "adjustorThunkIndex"
  | .moduleName => "moduleName"
  | .methodPointerCount => "methodPointerCount"
  | .adjustorThunkCount => "adjustorThunkCount"
  | .adjustorThunks => "adjustorThunks"
  | .invokerIndices => "invokerIndices"
  | .reversePInvokeWrapperIndices => "reversePInvokeWrapperIndices"
  | .rgctxRangesCount => "rgctxRangesCount"
  | .rgctxRanges => "rgctxRanges"
  | .rgctxsCount => "rgctxsCount"
  | .rgctxs => "rgctxs"
  | .debuggerMetadata => "debuggerMetadata"
  | .customAttributeCacheGenerator => "customAttributeCacheGenerator"
  | .moduleInitializer => "moduleInitializer"
  | .staticConstructorTypeIndices => "staticConstructorTypeIndices"
  | .metadataRegistration => "metadataRegistration"
  | .codeRegistration => "codeRegistration"

end Field

end GlobalMetadata
