import GlobalMetadata.Bytes
import GlobalMetadata.Error

/-!
# Type descriptors

A descriptor is stored as a pointer-sized datapoint and a packed 32-bit word. From its low end the
word holds 16 attribute bits, the tag of the kind (8 bits), the number of modifiers (6 bits), the
by-reference flag and the pinned flag. The kind decides what the datapoint means: an address keeps
all of its bits, an index only the low 32.
-/

namespace GlobalMetadata

/-- A decoded type descriptor. -/
structure Descriptor where
  /-- The attribute bits of the field or parameter that has this type. -/
  attributes : Nat
  kind : TypeKind
  /-- The number of custom modifiers. -/
  modifiers : Nat
  byref : Bool
  pinned : Bool
  /-- What the datapoint means. -/
  payload : Payload
  deriving DecidableEq, Repr

/-- What a datapoint means for a kind. -/
def TypeKind.payload (kind : TypeKind) (datapoint : Nat) : Payload :=
  match kind with
  | .valueType | .classType | .enum => .definition (asUInt32 datapoint)
  | .ptr | .szArray | .byRef => .element datapoint
  | .array => .array datapoint
  | .var | .mVar => .parameter (asUInt32 datapoint)
  | .genericInst => .instantiation datapoint
  | _ => .none

namespace Descriptor

/-- The attribute bit of a static field. -/
def staticBit : Nat :=
  4

/-- Whether the attributes are those of a static field. -/
def isStatic (descriptor : Descriptor) : Bool :=
  descriptor.attributes.testBit staticBit

/-- The tag in a packed word. -/
def tagOf (word : Nat) : Nat :=
  word / 0x10000 % 0x100

/-- **Unpacking.** The descriptor with a given packed word and datapoint; its tag has to be
known. -/
def unpack (word datapoint : Nat) : Except Error Descriptor :=
  match TypeKind.ofTag? (tagOf word) with
  | none => .error (.malformed (.kindTag (tagOf word)))
  | some kind =>
    .ok
      { attributes := word % 0x10000
        kind := kind
        modifiers := word / 0x1000000 % 0x40
        byref := word.testBit 30
        pinned := word.testBit 31
        payload := kind.payload datapoint }

end Descriptor

end GlobalMetadata
