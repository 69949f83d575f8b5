/-!
# Kinds of type descriptors

Every type that the metadata mentions is described by a kind and a payload. The kind is stored as a
tag; the payload is a pointer-sized value whose meaning depends on the kind alone.

* `TypeKind.tag` is the stored tag and `TypeKind.ofTag?` finds the kind of a tag;
* `Payload` holds the payload under the one interpretation that its kind allows.
-/

namespace GlobalMetadata

/-- The kind of a type descriptor. -/
inductive TypeKind
  /-- The end of a list. -/
  | endOfList
  /-- No value. -/
  | void
  /-- A truth value. -/
  | boolean
  /-- A UTF-16 unit. -/
  | char
  /-- A signed 8-bit number. -/
  | i1
  /-- An unsigned 8-bit number. -/
  | u1
  /-- A signed 16-bit number. -/
  | i2
  /-- An unsigned 16-bit number. -/
  | u2
  /-- A signed 32-bit number. -/
  | i4
  /-- An unsigned 32-bit number. -/
  | u4
  /-- A signed 64-bit number. -/
  | i8
  /-- An unsigned 64-bit number. -/
  | u8
  /-- A 32-bit float. -/
  | r4
  /-- A 64-bit float. -/
  | r8
  /-- A string. -/
  | string
  /-- An unmanaged pointer. -/
  | ptr
  /-- A reference to a variable. -/
  | byRef
  /-- A value type. -/
  | valueType
  /-- A class or interface. -/
  | classType
  /-- A generic parameter of a type. -/
  | var
  /-- An array of any rank. -/
  | array
  /-- An instantiated generic type. -/
  | genericInst
  /-- A reference that carries its type. -/
  | typedByRef
  /-- A signed number as wide as a pointer. -/
  | i
  /-- An unsigned number as wide as a pointer. -/
  | u
  /-- A function pointer. -/
  | fnPtr
  /-- Any object. -/
  | object
  /-- A vector: one dimension, first index zero. -/
  | szArray
  /-- A generic parameter of a method. -/
  | mVar
  /-- A modifier that must be understood. -/
  | cModReqd
  /-- A modifier that may be ignored. -/
  | cModOpt
  /-- A type that only the runtime uses. -/
  | internal
  /-- A flag on other kinds. -/
  | modifier
  /-- The start of variable arguments. -/
  | sentinel
  /-- A pinned local. -/
  | pinned
  /-- An enumeration. -/
  | enum
  deriving DecidableEq, Repr

namespace TypeKind

/-- Every kind, by ascending tag. -/
def all : List TypeKind :=
  [.endOfList, .void, .boolean, .char, .i1, .u1, .i2, .u2, .i4, .u4, .i8, .u8, .r4, .r8, .string,
    .ptr, .byRef, .valueType, .classType, .var, .array, .genericInst, .typedByRef, .i, .u, .fnPtr,
    .object, .szArray, .mVar, .cModReqd, .cModOpt, .internal, .modifier, .sentinel, .pinned, .enum]

/-- The stored tag. -/
def tag : TypeKind → Nat
  | .endOfList => 0x00
  | .void => 0x01
  | .boolean => 0x02
  | .char => 0x03
  | .i1 => 0x04
  | .u1 => 0x05
  | .i2 => 0x06
  | .u2 => 0x07
  | .i4 => 0x08
  | .u4 => 0x09
  | .i8 => 0x0A
  | .u8 => 0x0B
  | .r4 => 0x0C
  | .r8 => 0x0D
  | .string => 0x0E
  | .ptr => 0x0F
  | .byRef => 0x10
  | .valueType => 0x11
  | .classType => 0x12
  | .var => 0x13
  | .array => 0x14
  | .genericInst => 0x15
  | .typedByRef => 0x16
  | .i => 0x18
  | .u => 0x19
  | .fnPtr => 0x1B
  | .object => 0x1C
  | .szArray => 0x1D
  | .mVar => 0x1E
  | .cModReqd => 0x1F
  | .cModOpt => 0x20
  | .internal => 0x21
  | .modifier => 0x40
  | .sentinel => 0x41
  | .pinned => 0x45
  | .enum => 0x55

/-- The kind with a given tag. -/
def ofTag? (tag : Nat) : Option TypeKind :=
  all.find? (·.tag = tag)

@[simp] theorem ofTag?_tag (kind : TypeKind) : ofTag? kind.tag = some kind := by
  cases kind <;> rfl

/-- Different kinds have different tags. -/
theorem tag_inj {a b : TypeKind} : a.tag = b.tag ↔ a = b := by
  refine ⟨fun same => ?_, congrArg tag⟩
  have found := ofTag?_tag a
  rw [same, ofTag?_tag b] at found
  exact (Option.some.inj found).symm

/-- The written name. -/
def name : TypeKind → String
  | .endOfList => "End"
  | .void => "Void"
  | .boolean => "Boolean"
  | .char => "Char"
  | .i1 => "I1"
  | .u1 => "U1"
  | .i2 => "I2"
  | .u2 => "U2"
  | .i4 => "I4"
  | .u4 => "U4"
  | .i8 => "I8"
  | .u8 => "U8"
  | .r4 => "R4"
  | .r8 => "R8"
  | .string => "String"
  | .ptr => "Ptr"
  | .byRef => "ByRef"
  | .valueType => "ValueType"
  | .classType => "Class"
  | .var => "Var"
  | .array => "Array"
  | .genericInst => "GenericInst"
  | .typedByRef => "TypedByRef"
  | .i => "I"
  | .u => "U"
  | .fnPtr => "FnPtr"
  | .object => "Object"
  | .szArray => "SzArray"
  | .mVar => "MVar"
  | .cModReqd => "CModReqd"
  | .cModOpt => "CModOpt"
  | .internal => "Internal"
  | .modifier => "Modifier"
  | .sentinel => "Sentinel"
  | .pinned => "Pinned"
  | .enum => "Enum"

/-- Whether the kind alone describes the values. -/
def isPrimitive : TypeKind → Bool
  | .boolean | .char | .i1 | .u1 | .i2 | .u2 | .i4 | .u4 | .i8 | .u8 | .r4 | .r8 | .string
    | .i | .u | .object | .typedByRef => true
  | _ => false

end TypeKind

/-- The payload of a descriptor, as its kind has it read. -/
inductive Payload
  /-- The kind has no payload. -/
  | none
  /-- The position of a type definition. -/
  | definition (index : Nat)
  /-- The address of the descriptor of the element. -/
  | element (address : Nat)
  /-- The address of an array shape. -/
  | array (address : Nat)
  /-- The position of a generic parameter. -/
  | parameter (index : Nat)
  /-- The address of an instantiation. -/
  | instantiation (address : Nat)
  deriving DecidableEq, Repr

/-- The written form of a payload in diagnostics. -/
def Payload.text : Payload → String
  | .none => "None"
  | .definition index => s!"ClassIndex({index})"
  | .element address => s!"ElementType({address})"
  | .array address => s!"ArrayType({address})"
  | .parameter index => s!"GenericParameterIndex({index})"
  | .instantiation address => s!"GenericClass({address})"

end GlobalMetadata
