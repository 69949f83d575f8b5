import GlobalMetadata.Layout.Basic

/-!
# Structures of the native image

The declared fields of the two registration roots and of the structures that are reached from them
by address, in the order in which they are stored. The windows refer to the registration axis. A
field with two windows was there, disappeared and came back: the adjustor thunks belong to `24.5`
and to everything from `27.1` on.
-/

namespace GlobalMetadata.Layout

open FieldSpec Window

/-- The root of the code tables. -/
def codeRegistration : List FieldSpec :=
  [native .methodPointersCount [upTo ⟨24, 1⟩], native .methodPointers [upTo ⟨24, 1⟩],
    native .delegateWrappersFromNativeToManagedCount [upTo ⟨21, 0⟩],
    native .delegateWrappersFromNativeToManaged [upTo ⟨21, 0⟩],
    native .reversePInvokeWrapperCount [since ⟨22, 0⟩],
    native .reversePInvokeWrappers [since ⟨22, 0⟩],
    native .delegateWrappersFromManagedToNativeCount [upTo ⟨22, 0⟩],
    native .delegateWrappersFromManagedToNative [upTo ⟨22, 0⟩],
    native .marshalingFunctionsCount [upTo ⟨22, 0⟩], native .marshalingFunctions [upTo ⟨22, 0⟩],
    native .ccwMarshalingFunctionsCount [between ⟨21, 0⟩ ⟨22, 0⟩],
    native .ccwMarshalingFunctions [between ⟨21, 0⟩ ⟨22, 0⟩], native .genericMethodPointersCount,
    native .genericMethodPointers, native .genericAdjustorThunks [exactly ⟨24, 5⟩, since ⟨27, 1⟩],
    native .invokerPointersCount, native .invokerPointers,
    native .customAttributeCount [upTo ⟨24, 5⟩], native .customAttributeGenerators [upTo ⟨24, 5⟩],
    native .guidCount [between ⟨21, 0⟩ ⟨22, 0⟩], native .guids [between ⟨21, 0⟩ ⟨22, 0⟩],
    native .unresolvedVirtualCallCount [since ⟨22, 0⟩],
    native .unresolvedVirtualCallPointers [since ⟨22, 0⟩],
    native .unresolvedInstanceCallPointers [since ⟨29, 1⟩],
    native .unresolvedStaticCallPointers [since ⟨29, 1⟩],
    native .interopDataCount [since ⟨23, 0⟩], native .interopData [since ⟨23, 0⟩],
    native .windowsRuntimeFactoryCount [since ⟨24, 3⟩],
    native .windowsRuntimeFactoryTable [since ⟨24, 3⟩],
    native .codeGenModulesCount [since ⟨24, 2⟩], native .codeGenModules [since ⟨24, 2⟩]]

/-- The root of the type tables. -/
def metadataRegistration : List FieldSpec :=
  [native .genericClassesCount, native .genericClasses, native .genericInstsCount,
    native .genericInsts, native .genericMethodTableCount, native .genericMethodTable,
    native .typesCount, native .types, native .methodSpecsCount, native .methodSpecs,
    native .methodReferencesCount [upTo ⟨16, 0⟩], native .methodReferences [upTo ⟨16, 0⟩],
    native .fieldOffsetsCount, native .fieldOffsets, native .typeDefinitionsSizesCount,
    native .typeDefinitionsSizes, native .metadataUsagesCount [since ⟨19, 0⟩],
    native .metadataUsages [since ⟨19, 0⟩]]

/-- A packed type descriptor. -/
def typeDescriptor : List FieldSpec :=
  [native .datapoint, int32 .bits]

/-- An instantiation of a generic type. -/
def genericClass : List FieldSpec :=
  [native .typeDefinitionIndex [upTo ⟨24, 5⟩], native .type [since ⟨27, 0⟩], native .classInst,
    native .methodInst, native .cachedClass]

/-- The arguments in force for a class and a method. -/
def genericContext : List FieldSpec :=
  [native .classInst, native .methodInst]

/-- A list of generic arguments. -/
def genericInst : List FieldSpec :=
  [native .typeArgc, native .typeArgv]

/-- An array shape. The fields follow each other without padding, also after the single bytes. -/
def arrayType : List FieldSpec :=
  [native .etype, byte .rank, byte .numsizes, byte .numlobounds, native .sizes, native .lobounds]

/-- A method together with its generic arguments. -/
def methodSpec : List FieldSpec :=
  [int32 .methodDefinitionIndex, int32 .classIndexIndex, int32 .methodIndexIndex]

/-- The code of one instantiated method. -/
def genericMethodFunctions : List FieldSpec :=
  [int32 .genericMethodIndex, int32 .methodIndex, int32 .invokerIndex,
    int32 .adjustorThunkIndex [exactly ⟨24, 5⟩, since ⟨27, 1⟩]]

/-- The code tables of one managed module. -/
def codeGenModule : List FieldSpec :=
  [native .moduleName, native .methodPointerCount, native .methodPointers,
    native .adjustorThunkCount [exactly ⟨24, 5⟩, since ⟨27, 1⟩],
    native .adjustorThunks [exactly ⟨24, 5⟩, since ⟨27, 1⟩], native .invokerIndices,
    native .reversePInvokeWrapperCount, native .reversePInvokeWrapperIndices,
    native .rgctxRangesCount, native .rgctxRanges, native .rgctxsCount, native .rgctxs,
    native .debuggerMetadata, native .customAttributeCacheGenerator [between ⟨27, 0⟩ ⟨27, 2⟩],
    native .moduleInitializer [since ⟨27, 0⟩],
    native .staticConstructorTypeIndices [since ⟨27, 0⟩],
    native .metadataRegistration [since ⟨27, 0⟩], native .codeRegistration [since ⟨27, 0⟩]]

end GlobalMetadata.Layout
