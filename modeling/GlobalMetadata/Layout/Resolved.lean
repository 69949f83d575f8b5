import GlobalMetadata.Layout.Declared
import GlobalMetadata.Record
import GlobalMetadata.Version.Checked

/-!
# Resolved layouts

For a pair of versions and a pointer width, a declared layout becomes a `ResolvedLayout`: the fields
that exist, in stored order. They follow each other without padding, so that the size of a structure
is the sum of the widths of its fields, and an array is a run of structures at that stride.

* `ResolvedLayout.read` reads one record from the start of some bytes;
* `ResolvedLayout.readArray` reads consecutive records;
* `readBlobRecord` reads a structure of the blob, where all integers are little-endian.
-/

namespace GlobalMetadata

/-- A layout with the fields that exist for one pair of versions and one pointer width. -/
structure ResolvedLayout where
  /-- The kind of structure. -/
  kind : RecordKind
  /-- The version on the axis of the structure. -/
  version : Version
  /-- The width of pointer-sized fields. -/
  pointerWidth : PointerWidth
  /-- The fields that exist, in stored order. -/
  fields : List FieldSpec
  deriving DecidableEq, Repr

/-- The fields of a layout that exist for a pair, in stored order. -/
def Layout.present (layout : Layout) (pair : VersionPair) : List FieldSpec :=
  layout.fields.filter (·.isPresent pair layout.axis)

/-- The layout for a pair of supported versions. -/
def Layout.resolve (layout : Layout) (pair : VersionPair) (width : PointerWidth) :
    Except Error ResolvedLayout := do
  pair.ensureSupported
  return ⟨layout.kind, pair.on layout.axis, width, layout.present pair⟩

/-- The resolved layout of a kind of structure. -/
def RecordKind.resolve (kind : RecordKind) (pair : VersionPair) (width : PointerWidth) :
    Except Error ResolvedLayout :=
  (Layout.of kind).resolve pair width

/-- The fields of a kind of structure that exist for a pair. -/
def RecordKind.present (kind : RecordKind) (pair : VersionPair) :
    Except Error (List FieldSpec) := do
  pair.ensureSupported
  return (Layout.of kind).present pair

namespace ResolvedLayout

/-- The number of bytes of consecutive fields. -/
def totalWidth (p : PointerWidth) : List FieldSpec → Nat
  | [] => 0
  | spec :: specs => spec.width.bytes p + totalWidth p specs

/-- The number of bytes of one structure. -/
def size (layout : ResolvedLayout) : Nat :=
  totalWidth layout.pointerWidth layout.fields

/-- Whether a field of a given written name exists. -/
def hasNamed (layout : ResolvedLayout) (name : String) : Bool :=
  layout.fields.any (·.field.name = name)

/-- The values of consecutive fields at the start of some bytes. -/
def entriesOf (p : PointerWidth) (endian : Endian) :
    List FieldSpec → List UInt8 → List (Field × Nat)
  | [], _ => []
  | spec :: specs, bytes =>
    let width := spec.width.bytes p
    (spec.field, endian.decode (bytes.take width)) :: entriesOf p endian specs (bytes.drop width)

/-- The record at the start of some bytes, which have to be long enough. -/
def read (layout : ResolvedLayout) (endian : Endian) (bytes : List UInt8) : Except Error Record :=
  if bytes.length < layout.size then .error .outOfBounds
  else .ok ⟨layout.kind, layout.version, entriesOf layout.pointerWidth endian layout.fields bytes⟩

/-- The record at an offset of the data. -/
def readAt (layout : ResolvedLayout) (data : ByteArray) (endian : Endian) (offset : Nat) :
    Except Error Record :=
  match Bytes.slice? data offset layout.size with
  | some bytes => layout.read endian bytes
  | none => .error .outOfBounds

/-- `count` consecutive records from an offset of the data on. -/
def readArray (layout : ResolvedLayout) (data : ByteArray) (endian : Endian) (offset count : Nat) :
    Except Error (List Record) :=
  match Bytes.slice? data offset (count * layout.size) with
  | none => .error .outOfBounds
  | some bytes =>
    if layout.size = 0 then .ok []
    else (Bytes.chunks layout.size count bytes).mapM (layout.read endian)

end ResolvedLayout

/-- The number of bytes of a structure for a pair of versions and a pointer width. -/
def RecordKind.size (kind : RecordKind) (pair : VersionPair) (width : PointerWidth) :
    Except Error Nat :=
  (·.size) <$> kind.resolve pair width

/-- **Structures of the blob.** The record at an offset, and the number of bytes that it takes. The
blob is little-endian and has no pointers. -/
def readBlobRecord (kind : RecordKind) (pair : VersionPair) (data : ByteArray) (offset : Nat) :
    Except Error (Record × Nat) := do
  let layout ← kind.resolve pair .bits32
  let record ← layout.readAt data .little offset
  return (record, layout.size)

end GlobalMetadata
