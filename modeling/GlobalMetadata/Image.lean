import GlobalMetadata.Layout.Resolved

/-!
# Images

The registration tables live in a native image and refer to each other by virtual address. An
`Image` is the bytes of the file with the segments that say which addresses stand for which bytes.
Every address goes through `Image.offsetOf` before anything is read; where two segments cover an
address, the first one counts.

* `Image.pointers` reads an array of pointers, `Image.cString` a text, `Image.record` a structure;
* an empty array is never looked up, so its address may be anything.
-/

namespace GlobalMetadata

/-- A run of addresses that stand for consecutive bytes of the file. -/
structure Segment where
  address : Nat
  /-- The place of that address in the file. -/
  offset : Nat
  /-- The number of bytes. -/
  size : Nat
  deriving DecidableEq, Repr

/-- The place in the file that an address stands for, if the segment covers it. -/
def Segment.translate (segment : Segment) (address : Nat) : Option Nat :=
  let delta := address - segment.address
  if segment.address ≤ address ∧ delta < segment.size ∧ segment.offset + delta < addressLimit then
    some (segment.offset + delta)
  else none

/-- The format that an image was loaded from. -/
inductive ImageFormat
  /-- Plain bytes with given segments. -/
  | flat
  /-- A Portable Executable. -/
  | pe
  /-- An Executable and Linkable Format file. -/
  | elf
  /-- A Mach object file. -/
  | machO
  deriving DecidableEq, Repr

/-- The bytes of a native image and what its addresses stand for. -/
structure Image where
  /-- The format that it was loaded from. -/
  format : ImageFormat
  /-- The bytes of the file. -/
  data : ByteArray
  /-- The segments, in the order in which they are tried. -/
  segments : List Segment
  pointerWidth : PointerWidth
  /-- The byte order of all integers. -/
  endian : Endian

namespace Image

/-- The size of the pieces in which a text is read. -/
def textPiece : Nat :=
  64

/-- The `length` bytes at `offset` of the file. -/
def readBytes (image : Image) (offset length : Nat) : Except Error (List UInt8) :=
  match Bytes.slice? image.data offset length with
  | some bytes => .ok bytes
  | none => .error .outOfBounds

/-- The place in the file that an address stands for. -/
def offsetOf (image : Image) (address : Nat) : Except Error Nat :=
  match image.segments.findSome? (·.translate address) with
  | some offset => .ok offset
  | none => .error (.unmapped address)

/-- The pointer at `offset` of the file. -/
def pointer (image : Image) (offset : Nat) : Except Error Nat :=
  image.endian.decode <$> image.readBytes offset image.pointerWidth.bytes

/-- **Pointer arrays.** The `count` pointers from an address on. An empty array is not looked up. An
array that no address space can hold is out of bounds, whether or not its address is mapped. -/
def pointers (image : Image) (address count : Nat) : Except Error (List Nat) := do
  let width := image.pointerWidth.bytes
  if count = 0 then
    return []
  if addressLimit ≤ count * width then
    throw .outOfBounds
  let offset ← image.offsetOf address
  let bytes ← image.readBytes offset (count * width)
  return (Bytes.chunks width count bytes).map image.endian.decode

/-- The bytes in front of the next zero byte from `offset` on, in at most `fuel` pieces. A piece
that would reach past the end of the file is replaced by a single byte. -/
def textBytes (image : Image) : Nat → Nat → Except Error (List UInt8)
  | 0, _ => .error .outOfBounds
  | fuel + 1, offset => do
    let piece ←
      match image.readBytes offset textPiece with
      | .ok piece => pure piece
      | .error _ => image.readBytes offset 1
    match piece.span (· ≠ 0) with
    | (text, _ :: _) => return text
    | (text, []) => return text ++ (← textBytes image fuel (offset + piece.length))

/-- **Texts.** The text at an address, up to the next zero byte. -/
def cString (image : Image) (address : Nat) : Except Error String := do
  let offset ← image.offsetOf address
  let bytes ← image.textBytes (image.data.size - offset + 1) offset
  match Utf8.decode bytes with
  | .ok text => return text
  | .error fault => throw (.malformed (.textAtAddress address fault))

/-- The structure at an address. -/
def record (image : Image) (layout : ResolvedLayout) (address : Nat) : Except Error Record := do
  layout.readAt image.data image.endian (← image.offsetOf address)

/-- The `count` consecutive structures from an address on. An empty array is not looked up. -/
def records (image : Image) (layout : ResolvedLayout) (address count : Nat) :
    Except Error (List Record) := do
  if count = 0 then
    return []
  layout.readArray image.data image.endian (← image.offsetOf address) count

/-- The structure of a kind at an offset of the file, and the number of bytes that it takes. -/
def recordAtOffset (image : Image) (kind : RecordKind) (pair : VersionPair) (offset : Nat) :
    Except Error (Record × Nat) := do
  let layout ← kind.resolve pair image.pointerWidth
  let record ← layout.readAt image.data image.endian offset
  return (record, layout.size)

end Image

end GlobalMetadata
