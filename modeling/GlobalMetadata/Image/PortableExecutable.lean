import GlobalMetadata.Image

/-!
# Portable Executables

A Portable Executable starts with an old header that points to the real one. The segments are its
sections, at addresses relative to the image base; of each, only the bytes that are both in the file
and in memory count. All integers are little-endian.
-/

namespace GlobalMetadata.PortableExecutable

/-- The two bytes at the start of the file. -/
def magic : List UInt8 :=
  [0x4D, 0x5A]

/-- Where the old header keeps the place of the real one. -/
def pointerOffset : Nat :=
  0x3C

/-- The four bytes at the start of the real header, as a number. -/
def signature : Nat :=
  0x00004550

/-- The size of the signature and of the fixed header behind it. -/
def headerSize : Nat :=
  24

/-- The size of a section header. -/
def sectionSize : Nat :=
  40

/-- An integer of the file. -/
def word? (data : ByteArray) (width offset : Nat) : Option Nat :=
  Bytes.word? data .little width offset

/-- The pointer width and the image base that the optional header at `start` declares. -/
def optionalHeader? (data : ByteArray) (start : Nat) : Option (PointerWidth × Nat) := do
  match ← word? data 2 start with
  | 0x10B => return (.bits32, ← word? data 4 (start + 28))
  | 0x20B => return (.bits64, ← word? data 8 (start + 24))
  | _ => none

/-- The segment of the section header at `start`. -/
def segment? (data : ByteArray) (base start : Nat) : Option Segment := do
  let virtualSize ← word? data 4 (start + 8)
  let address ← word? data 4 (start + 12)
  let rawSize ← word? data 4 (start + 16)
  let offset ← word? data 4 (start + 20)
  return ⟨base + address, offset, min virtualSize rawSize⟩

/-- The image in a Portable Executable, `none` when its headers cannot be read. -/
def image? (data : ByteArray) : Option Image := do
  let start ← word? data 4 pointerOffset
  guard ((← word? data 4 start) = signature)
  let count ← word? data 2 (start + 6)
  let optionalSize ← word? data 2 (start + 20)
  let optionalStart := start + headerSize
  let (width, base) ←
    if optionalSize = 0 then pure (.bits32, 0) else optionalHeader? data optionalStart
  let segments ← (List.range count).mapM fun k =>
    segment? data base (optionalStart + optionalSize + k * sectionSize)
  return ⟨.pe, data, segments, width, .little⟩

end GlobalMetadata.PortableExecutable
