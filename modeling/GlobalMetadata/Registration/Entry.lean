import GlobalMetadata.Image
import GlobalMetadata.Record

/-!
# Entries of the registration tables

The structures that the registration roots lead to: instantiated types and their argument lists,
array shapes, instantiated methods, and the modules that hold compiled code.
-/

namespace GlobalMetadata

/-! ### Generic types -/

/-- How an instantiated type names the definition that it instantiates. -/
inductive GenericDefinition
  /-- By its position among the type definitions. -/
  | row (index : Nat)
  /-- By the address of its type descriptor. -/
  | type (address : Nat)
  deriving DecidableEq, Repr

/-- An instantiated type. -/
structure GenericClass where
  definition : GenericDefinition
  /-- The address of the arguments of the type, 0 for none. -/
  classInst : Nat
  /-- The address of the arguments of a method, 0 for none. -/
  methodInst : Nat
  /-- Reserved for the runtime. -/
  cachedClass : Nat
  deriving DecidableEq, Repr

/-- The definition that a record names; versions differ in how. -/
def GenericDefinition.ofRecord (r : Record) : Except Error GenericDefinition := do
  match r.get? .type with
  | some address => return .type address
  | none =>
    let value ← r.int32 .typeDefinitionIndex
    match toIndex? value with
    | some index => return .row index
    | none => throw (.unresolved (.instantiatedIndex value))

/-- The instantiated type that a record holds. -/
def GenericClass.ofRecord (r : Record) : Except Error GenericClass := do
  return {
    definition := ← GenericDefinition.ofRecord r
    classInst := ← r.get .classInst
    methodInst := ← r.get .methodInst
    cachedClass := ← r.get .cachedClass
  }

/-- A list of generic arguments. -/
structure GenericInst where
  /-- The number of arguments. -/
  count : Nat
  /-- The address of the array of their descriptors' addresses. -/
  address : Nat
  deriving DecidableEq, Repr

namespace GenericInst

/-- The list that a record holds. -/
def ofRecord (r : Record) : Except Error GenericInst := do
  return ⟨← r.get .typeArgc, ← r.get .typeArgv⟩

/-- The addresses of the arguments' descriptors. -/
def arguments (inst : GenericInst) (image : Image) : Except Error (List Nat) :=
  image.pointers inst.address inst.count

end GenericInst

/-- The shape of an array. -/
structure ArrayShape where
  /-- The address of the element's descriptor. -/
  element : Nat
  /-- The number of dimensions. -/
  rank : Nat
  /-- The number of known sizes. -/
  sizeCount : Nat
  /-- The number of known lower bounds. -/
  lowerBoundCount : Nat
  /-- The address of the sizes. -/
  sizes : Nat
  /-- The address of the lower bounds. -/
  lowerBounds : Nat
  deriving DecidableEq, Repr

/-- The shape that a record holds. -/
def ArrayShape.ofRecord (r : Record) : Except Error ArrayShape := do
  return {
    element := ← r.get .etype
    rank := ← r.uint8 .rank
    sizeCount := ← r.uint8 .numsizes
    lowerBoundCount := ← r.uint8 .numlobounds
    sizes := ← r.get .sizes
    lowerBounds := ← r.get .lobounds
  }

/-! ### Generic methods -/

/-- A method together with its generic arguments, all as indices. -/
structure MethodSpec where
  method : Int
  /-- The arguments of its type. -/
  classArguments : Int
  /-- The arguments of the method itself. -/
  methodArguments : Int
  deriving DecidableEq, Repr

/-- The entry that a record holds. -/
def MethodSpec.ofRecord (r : Record) : Except Error MethodSpec := do
  return {
    method := ← r.int32 .methodDefinitionIndex
    classArguments := ← r.int32 .classIndexIndex
    methodArguments := ← r.int32 .methodIndexIndex
  }

/-- The code of one instantiated method. -/
structure GenericMethod where
  /-- The method with its arguments. -/
  spec : Int
  /-- The place of the code. -/
  method : Int
  /-- The place of the invoker. -/
  invoker : Int
  /-- The place of the adjustor thunk. -/
  adjustorThunk : Option Int
  deriving DecidableEq, Repr

/-- The entry that a record holds. -/
def GenericMethod.ofRecord (r : Record) : Except Error GenericMethod := do
  return {
    spec := ← r.int32 .genericMethodIndex
    method := ← r.int32 .methodIndex
    invoker := ← r.int32 .invokerIndex
    adjustorThunk := asInt32 <$> r.get? .adjustorThunkIndex
  }

/-! ### Modules -/

/-- The code of one managed module. -/
structure CodeModule where
  /-- The name of the managed module. -/
  name : String
  /-- The addresses of the methods, by the row of their tokens. -/
  methodPointers : Array Nat
  /-- The number of adjustor thunks. -/
  adjustorThunkCount : Option Nat
  /-- The address of the invoker indices. -/
  invokerIndices : Nat
  /-- The number of wrappers for calls from native code. -/
  reverseWrapperCount : Nat
  /-- The number of ranges of runtime generic contexts. -/
  rgctxRangeCount : Nat
  /-- The number of runtime generic contexts. -/
  rgctxCount : Nat
  /-- The address of the initializer. -/
  moduleInitializer : Option Nat
  deriving DecidableEq, Repr

/-- An address other than zero. -/
def nonzero? (address : Nat) : Option Nat :=
  if address = 0 then none else some address

namespace CodeModule

/-- The module that a record describes; its name and its method pointers are read from the image. -/
def ofRecord (image : Image) (r : Record) : Except Error CodeModule := do
  let name ← image.cString (← r.get .moduleName)
  let methodPointers ← image.pointers (← r.get .methodPointers) (← r.get .methodPointerCount)
  return {
    name := name
    methodPointers := methodPointers.toArray
    adjustorThunkCount := r.get? .adjustorThunkCount
    invokerIndices := ← r.get .invokerIndices
    reverseWrapperCount := ← r.get .reversePInvokeWrapperCount
    rgctxRangeCount := ← r.get .rgctxRangesCount
    rgctxCount := ← r.get .rgctxsCount
    moduleInitializer := r.get? .moduleInitializer
  }

/-- The row in a metadata token; rows are counted from 1. -/
def rowOfToken (token : Nat) : Nat :=
  token % 0x1000000

/-- The address of the method with a given token. -/
def methodAddress (module : CodeModule) (token : Nat) : Option Nat :=
  match rowOfToken token with
  | 0 => none
  | row + 1 => module.methodPointers[row]? >>= nonzero?

end CodeModule

end GlobalMetadata
