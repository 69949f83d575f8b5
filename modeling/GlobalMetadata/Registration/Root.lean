import GlobalMetadata.Record

/-!
# The registration roots

Two structures of the native image lead to everything else in it: the code registration to methods
and modules, the metadata registration to type descriptors and generic instantiations. Each holds
arrays, as a count and an address.
-/

namespace GlobalMetadata

/-- An array of the native image. -/
structure NativeArray where
  /-- The number of elements. -/
  count : Nat
  /-- The address of the first one. -/
  address : Nat
  deriving DecidableEq, Repr

namespace NativeArray

/-- The array that two fields of a record describe. -/
def ofRecord (r : Record) (counter base : Field) : Except Error NativeArray := do
  return ⟨← r.get counter, ← r.get base⟩

/-- The array that two fields of a record describe, in versions that have the first of them. -/
def ofRecord? (r : Record) (counter base : Field) : Except Error (Option NativeArray) :=
  if r.contains counter then some <$> ofRecord r counter base else .ok none

end NativeArray

/-- The root of the code tables. -/
structure CodeRegistration where
  /-- The code of all methods, where it is not kept by module. -/
  methodPointers : Option NativeArray
  /-- The code of instantiated methods. -/
  genericMethodPointers : NativeArray
  invokerPointers : NativeArray
  /-- The modules, where code is kept by module. -/
  codeGenModules : Option NativeArray
  deriving DecidableEq, Repr

/-- The root that a record holds. -/
def CodeRegistration.ofRecord (r : Record) : Except Error CodeRegistration := do
  return {
    methodPointers := ← NativeArray.ofRecord? r .methodPointersCount .methodPointers
    genericMethodPointers :=
      ← NativeArray.ofRecord r .genericMethodPointersCount .genericMethodPointers
    invokerPointers := ← NativeArray.ofRecord r .invokerPointersCount .invokerPointers
    codeGenModules := ← NativeArray.ofRecord? r .codeGenModulesCount .codeGenModules
  }

/-- The root of the type tables. -/
structure MetadataRegistration where
  genericClasses : NativeArray
  /-- The lists of generic arguments. -/
  genericInsts : NativeArray
  genericMethodTable : NativeArray
  types : NativeArray
  /-- The methods with their generic arguments. -/
  methodSpecs : NativeArray
  fieldOffsets : NativeArray
  typeDefinitionsSizes : NativeArray
  /-- The uses of metadata. -/
  metadataUsages : Option NativeArray
  deriving DecidableEq, Repr

/-- The root that a record holds. -/
def MetadataRegistration.ofRecord (r : Record) : Except Error MetadataRegistration := do
  return {
    genericClasses := ← NativeArray.ofRecord r .genericClassesCount .genericClasses
    genericInsts := ← NativeArray.ofRecord r .genericInstsCount .genericInsts
    genericMethodTable := ← NativeArray.ofRecord r .genericMethodTableCount .genericMethodTable
    types := ← NativeArray.ofRecord r .typesCount .types
    methodSpecs := ← NativeArray.ofRecord r .methodSpecsCount .methodSpecs
    fieldOffsets := ← NativeArray.ofRecord r .fieldOffsetsCount .fieldOffsets
    typeDefinitionsSizes :=
      ← NativeArray.ofRecord r .typeDefinitionsSizesCount .typeDefinitionsSizes
    metadataUsages := ← NativeArray.ofRecord? r .metadataUsagesCount .metadataUsages
  }

end GlobalMetadata
