import GlobalMetadata.Descriptor
import GlobalMetadata.Registration.Entry
import GlobalMetadata.Registration.Root
import GlobalMetadata.Row.Member

/-!
# Registration tables

The flat tables of a native image are read once. What the type graph follows by address later on,
such as instantiations and the descriptors of their arguments, is read from the image when it is
asked for.

* `Registration.read` reads the tables from the two roots;
* `Registration.typeAt` gives the descriptor at an address, from the table if it is listed there;
* `Registration.methodAddress` finds the compiled code of a method.
-/

namespace GlobalMetadata

/-- A native image with the addresses of its two roots. -/
structure RegistrationSource where
  image : Image
  /-- The address of the code registration. -/
  codeRegistration : Nat
  /-- The address of the metadata registration. -/
  metadataRegistration : Nat

/-- The layouts of the structures that are read when an address is followed. -/
structure FollowedLayouts where
  /-- That of a type descriptor. -/
  descriptor : ResolvedLayout
  /-- That of an instantiated type. -/
  genericClass : ResolvedLayout
  /-- That of an argument list. -/
  genericInst : ResolvedLayout
  /-- That of an array shape. -/
  arrayType : ResolvedLayout

/-- The registration tables of an image. -/
structure Registration where
  image : Image
  /-- The versions that the tables were read for. -/
  pair : VersionPair
  /-- The root of the code tables. -/
  code : CodeRegistration
  /-- The root of the type tables. -/
  metadata : MetadataRegistration
  types : Array Descriptor
  /-- The addresses of the type descriptors. -/
  typeAddresses : Array Nat
  /-- The addresses of the instantiated types. -/
  genericClasses : Array Nat
  genericInsts : Array GenericInst
  /-- The methods with their generic arguments. -/
  methodSpecs : Array MethodSpec
  genericMethods : Array GenericMethod
  /-- The modules, where code is kept by module. -/
  modules : Array CodeModule
  /-- The addresses of all methods, where code is not kept by module. -/
  methodPointers : Array Nat
  /-- How structures that are reached by address are read. -/
  layouts : FollowedLayouts

namespace Registration

/-- The type descriptor at an address of an image. -/
def readDescriptor (image : Image) (layout : ResolvedLayout) (address : Nat) :
    Except Error Descriptor := do
  let record ← image.record layout address
  Descriptor.unpack (← record.uint32 .bits) (← record.get .datapoint)

/-- The argument list at an address of an image. -/
def readInst (image : Image) (layout : ResolvedLayout) (address : Nat) :
    Except Error GenericInst := do
  GenericInst.ofRecord (← image.record layout address)

/-- The entries of an array of structures that stand one after the other. -/
def readInline {α : Type} (image : Image) (layout : ResolvedLayout) (array : NativeArray)
    (ofRecord : Record → Except Error α) : Except Error (Array α) := do
  let records ← image.records layout array.address array.count
  return (← records.mapM ofRecord).toArray

/-- The entries of an array of addresses. -/
def readLinked {α : Type} (image : Image) (array : NativeArray) (read : Nat → Except Error α) :
    Except Error (Array α) := do
  let addresses ← image.pointers array.address array.count
  return (← addresses.mapM read).toArray

/-- The modules of an image, none in versions that do not keep code by module. -/
def readModules (image : Image) (pair : VersionPair) :
    Option NativeArray → Except Error (Array CodeModule)
  | none => .ok #[]
  | some array => do
    let layout ← RecordKind.codeGenModule.resolve pair image.pointerWidth
    readLinked image array fun address => do
      CodeModule.ofRecord image (← image.record layout address)

/-- An array of addresses, empty in versions without it. -/
def readAddresses (image : Image) : Option NativeArray → Except Error (Array Nat)
  | none => .ok #[]
  | some array => readLinked image array .ok

/-- **Reading the tables.** Everything that the two roots lead to directly. -/
def read (source : RegistrationSource) (pair : VersionPair) : Except Error Registration := do
  let image := source.image
  let layout (kind : RecordKind) := kind.resolve pair image.pointerWidth
  let code ← CodeRegistration.ofRecord
    (← image.record (← layout .codeRegistration) source.codeRegistration)
  let metadata ← MetadataRegistration.ofRecord
    (← image.record (← layout .metadataRegistration) source.metadataRegistration)
  let layouts : FollowedLayouts :=
    { descriptor := ← layout .typeDescriptor
      genericClass := ← layout .genericClass
      genericInst := ← layout .genericInst
      arrayType := ← layout .arrayType }
  let typeAddresses ← readAddresses image (some metadata.types)
  let types ← typeAddresses.toList.mapM (readDescriptor image layouts.descriptor)
  let genericClasses ← readAddresses image (some metadata.genericClasses)
  let genericInsts ← readLinked image metadata.genericInsts (readInst image layouts.genericInst)
  let methodSpecs ←
    readInline image (← layout .methodSpec) metadata.methodSpecs MethodSpec.ofRecord
  let genericMethods ←
    readInline image (← layout .genericMethodFunctions) metadata.genericMethodTable
      GenericMethod.ofRecord
  let modules ← readModules image pair code.codeGenModules
  let methodPointers ← readAddresses image code.methodPointers
  return {
    image := image
    pair := pair
    code := code
    metadata := metadata
    types := types.toArray
    typeAddresses := typeAddresses
    genericClasses := genericClasses
    genericInsts := genericInsts
    methodSpecs := methodSpecs
    genericMethods := genericMethods
    modules := modules
    methodPointers := methodPointers
    layouts := layouts
  }

/-! ### Following addresses -/

/-- The first position at which an address stands in the table of type descriptors. -/
def typeIndexOf (tables : Registration) (address : Nat) : Option Nat :=
  tables.typeAddresses.findIdx? (· = address)

/-- The type descriptor at an address. -/
def typeAt (tables : Registration) (address : Nat) : Except Error Descriptor :=
  match tables.typeIndexOf address >>= (tables.types[·]?) with
  | some descriptor => .ok descriptor
  | none => readDescriptor tables.image tables.layouts.descriptor address

/-- The instantiated type at an address. -/
def genericClassAt (tables : Registration) (address : Nat) : Except Error GenericClass := do
  GenericClass.ofRecord (← tables.image.record tables.layouts.genericClass address)

/-- The argument list at an address. -/
def genericInstAt (tables : Registration) (address : Nat) : Except Error GenericInst :=
  readInst tables.image tables.layouts.genericInst address

/-- The array shape at an address. -/
def arrayTypeAt (tables : Registration) (address : Nat) : Except Error ArrayShape := do
  ArrayShape.ofRecord (← tables.image.record tables.layouts.arrayType address)

/-! ### Compiled code -/

/-- The first module with a given name. -/
def module? (tables : Registration) (name : String) : Option CodeModule :=
  tables.modules.find? (·.name = name)

/-- The last version that keeps the code of all methods in one table. -/
def lastGlobalCode : Version :=
  ⟨24, 1⟩

/-- The address of a method's code: by its position among all methods in older versions, by its
token within its module in newer ones. -/
def methodAddress (tables : Registration) (moduleName : String) (method : MethodDefinition) :
    Option Nat := do
  if tables.pair.registration ≤ lastGlobalCode then
    nonzero? (← tables.methodPointers[← method.methodIndex]?)
  else
    (← tables.module? moduleName).methodAddress method.token

end Registration

end GlobalMetadata
