import GlobalMetadata.Row

/-!
# Managed modules and assemblies

An image definition is a managed module, with the run of type definitions that it declares. An
assembly definition holds the name of its assembly in parts.
-/

namespace GlobalMetadata

/-- A managed module. -/
structure ImageDefinition where
  /-- The place of the name in the string heap. -/
  nameIndex : Nat
  /-- The assembly that holds the module. -/
  assemblyIndex : Nat
  /-- The first type definition of the module. -/
  typeStart : Int
  /-- The number of type definitions. -/
  typeCount : Nat
  /-- The first exported type. -/
  exportedTypeStart : Option Nat
  /-- The number of exported types. -/
  exportedTypeCount : Option Nat
  /-- The method with which the program starts. -/
  entryPointIndex : Option Nat
  token : Option Nat
  /-- The first custom attribute. -/
  customAttributeStart : Option Nat
  /-- The number of custom attributes. -/
  customAttributeCount : Option Nat
  deriving DecidableEq, Repr

instance : Row ImageDefinition where
  kind := .imageDefinition
  ofRecord r := do
    return {
      nameIndex := ← r.uint32 .nameIndex
      assemblyIndex := ← r.uint32 .assemblyIndex
      typeStart := ← r.int32 .typeStart
      typeCount := ← r.uint32 .typeCount
      exportedTypeStart := r.uint32? .exportedTypeStart
      exportedTypeCount := r.uint32? .exportedTypeCount
      entryPointIndex := ← r.index .entryPointIndex
      token := r.uint32? .token
      customAttributeStart := r.uint32? .customAttributeStart
      customAttributeCount := r.uint32? .customAttributeCount
    }

/-- The name of an assembly in parts. -/
structure AssemblyName where
  /-- The place of the simple name in the string heap. -/
  nameIndex : Nat
  /-- The place of the culture in the string heap. -/
  cultureIndex : Nat
  /-- The place of the hash value. -/
  hashValueIndex : Option Nat
  /-- The place of the public key. -/
  publicKeyIndex : Nat
  hashAlgorithm : Nat
  hashLength : Int
  flags : Nat
  /-- The first part of the version. -/
  major : Int
  /-- The second part of the version. -/
  minor : Int
  /-- The third part of the version. -/
  build : Int
  /-- The fourth part of the version. -/
  revision : Int
  /-- The eight bytes of the public key token. -/
  publicKeyToken : List UInt8
  deriving DecidableEq, Repr

/-- An assembly. -/
structure AssemblyDefinition where
  /-- The module that holds the manifest. -/
  imageIndex : Nat
  token : Option Nat
  customAttributeIndex : Option Nat
  /-- The first referenced assembly. -/
  referencedAssemblyStart : Option Nat
  /-- The number of referenced assemblies. -/
  referencedAssemblyCount : Option Nat
  name : AssemblyName
  deriving DecidableEq, Repr

/-- The name that an assembly record embeds. -/
def AssemblyName.ofRecord (r : Record) : Except Error AssemblyName := do
  return {
    nameIndex := ← r.uint32 .nameIndex
    cultureIndex := ← r.uint32 .cultureIndex
    hashValueIndex := r.uint32? .hashValueIndex
    publicKeyIndex := ← r.uint32 .publicKeyIndex
    hashAlgorithm := ← r.uint32 .hashAlg
    hashLength := ← r.int32 .hashLen
    flags := ← r.uint32 .flags
    major := ← r.int32 .major
    minor := ← r.int32 .minor
    build := ← r.int32 .build
    revision := ← r.int32 .revision
    publicKeyToken := Endian.little.encode 8 (← r.get .publicKeyToken)
  }

instance : Row AssemblyDefinition where
  kind := .assemblyDefinition
  ofRecord r := do
    let name ← AssemblyName.ofRecord r
    return {
      imageIndex := ← r.uint32 .imageIndex
      token := r.uint32? .token
      customAttributeIndex := r.uint32? .customAttributeIndex
      referencedAssemblyStart := r.uint32? .referencedAssemblyStart
      referencedAssemblyCount := r.uint32? .referencedAssemblyCount
      name := name
    }

end GlobalMetadata
