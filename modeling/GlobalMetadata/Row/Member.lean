import GlobalMetadata.Row

/-!
# Members of types

Methods, parameters, fields, properties and events.
-/

namespace GlobalMetadata

/-- A method. -/
structure MethodDefinition where
  /-- The place of the name in the string heap. -/
  nameIndex : Nat
  declaringType : Option Nat
  /-- The descriptor of the result. -/
  returnType : Option Nat
  /-- The token of the result. -/
  returnParameterToken : Option Nat
  parameterStart : Int
  genericContainerIndex : Option Nat
  /-- The place of the code among all methods. -/
  methodIndex : Option Nat
  /-- The place of the invoker. -/
  invokerIndex : Option Nat
  token : Nat
  flags : Nat
  iflags : Nat
  /-- The place in the dispatch table. -/
  slot : Nat
  /-- The number of parameters. -/
  parameterCount : Nat
  deriving DecidableEq, Repr

namespace MethodDefinition

/-- The attribute bits that have a meaning here: visibility, static, final, virtual, hiding, new
slot, abstract and special name. -/
def knownFlags : Nat :=
  0x01 ||| 0x06 ||| 0x10 ||| 0x20 ||| 0x40 ||| 0x80 ||| 0x100 ||| 0x400 ||| 0x800

/-- The attribute bit of a static method. -/
def staticBit : Nat :=
  4

/-- The attribute flags that have a meaning here. -/
def attributes (row : MethodDefinition) : Nat :=
  row.flags &&& knownFlags

/-- Whether the method has no receiver. -/
def isStatic (row : MethodDefinition) : Bool :=
  row.attributes.testBit staticBit

end MethodDefinition

instance : Row MethodDefinition where
  kind := .methodDefinition
  ofRecord r := do
    return {
      nameIndex := ← r.uint32 .nameIndex
      declaringType := ← r.index .declaringType
      returnType := ← r.index .returnType
      returnParameterToken := r.uint32? .returnParameterToken
      parameterStart := ← r.int32 .parameterStart
      genericContainerIndex := ← r.index .genericContainerIndex
      methodIndex := r.index? .methodIndex
      invokerIndex := r.index? .invokerIndex
      token := ← r.uint32 .token
      flags := ← r.uint16 .flags
      iflags := ← r.uint16 .iflags
      slot := ← r.uint16 .slot
      parameterCount := ← r.uint16 .parameterCount
    }

/-- A parameter of a method. -/
structure ParameterDefinition where
  /-- The place of the name in the string heap. -/
  nameIndex : Nat
  token : Nat
  /-- The descriptor of the type. -/
  typeIndex : Option Nat
  deriving DecidableEq, Repr

instance : Row ParameterDefinition where
  kind := .parameterDefinition
  ofRecord r := do
    return {
      nameIndex := ← r.uint32 .nameIndex
      token := ← r.uint32 .token
      typeIndex := ← r.index .typeIndex
    }

/-- A field of a type. -/
structure FieldDefinition where
  /-- The place of the name in the string heap. -/
  nameIndex : Nat
  /-- The descriptor of the type. -/
  typeIndex : Option Nat
  token : Option Nat
  deriving DecidableEq, Repr

instance : Row FieldDefinition where
  kind := .fieldDefinition
  ofRecord r := do
    return {
      nameIndex := ← r.uint32 .nameIndex
      typeIndex := ← r.index .typeIndex
      token := r.uint32? .token
    }

/-- A property of a type. -/
structure PropertyDefinition where
  /-- The place of the name in the string heap. -/
  nameIndex : Nat
  /-- The method that reads the property. -/
  getter : Option Nat
  /-- The method that writes the property. -/
  setter : Option Nat
  attributes : Nat
  token : Option Nat
  deriving DecidableEq, Repr

instance : Row PropertyDefinition where
  kind := .propertyDefinition
  ofRecord r := do
    return {
      nameIndex := ← r.uint32 .nameIndex
      getter := ← r.index .get
      setter := ← r.index .set
      attributes := ← r.uint32 .attrs
      token := r.uint32? .token
    }

/-- An event of a type. -/
structure EventDefinition where
  /-- The place of the name in the string heap. -/
  nameIndex : Nat
  /-- The descriptor of the handler type. -/
  typeIndex : Option Nat
  /-- The method that adds a handler. -/
  adder : Option Nat
  /-- The method that removes a handler. -/
  remover : Option Nat
  /-- The method that raises the event. -/
  raiser : Option Nat
  token : Option Nat
  deriving DecidableEq, Repr

instance : Row EventDefinition where
  kind := .eventDefinition
  ofRecord r := do
    return {
      nameIndex := ← r.uint32 .nameIndex
      typeIndex := ← r.index .typeIndex
      adder := ← r.index .add
      remover := ← r.index .remove
      raiser := ← r.index .raise
      token := r.uint32? .token
    }

end GlobalMetadata
