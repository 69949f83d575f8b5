import GlobalMetadata.Image

/-!
# ELF files

The header of an ELF file says how wide its addresses are and in which byte order it is written. The
segments are the program headers of type "load".
-/

namespace GlobalMetadata.Elf

/-- The four bytes at the start of every ELF file. -/
def magic : List UInt8 :=
  [0x7F, 0x45, 0x4C, 0x46]

/-- The type of a program header that is loaded into memory. -/
def loadType : Nat :=
  1

/-- The address width that the class byte stands for. -/
def pointerWidth? : Nat → Option PointerWidth
  | 1 => some .bits32
  | 2 => some .bits64
  | _ => none

/-- The byte order that the encoding byte stands for. -/
def endian? : Nat → Option Endian
  | 1 => some .little
  | 2 => some .big
  | _ => none

/-- Where the parts of the file header and of a program header stand. -/
structure Offsets where
  /-- The size of an address. -/
  address : Nat
  /-- In the file header: where the program headers start. -/
  tableStart : Nat
  /-- In the file header: how many program headers there are. -/
  tableCount : Nat
  /-- The size of a program header. -/
  entry : Nat
  /-- In a program header: the place of the segment in the file. -/
  fileOffset : Nat
  /-- In a program header: the first address of the segment. -/
  firstAddress : Nat
  /-- In a program header: the number of bytes in the file. -/
  fileSize : Nat

/-- The offsets for each address width. -/
def offsets : PointerWidth → Offsets
  | .bits32 => ⟨4, 28, 44, 32, 4, 8, 16⟩
  | .bits64 => ⟨8, 32, 56, 56, 8, 16, 32⟩

/-- The segment of the program header at `start`; the outer `none` stands for a header that cannot
be read, the inner one for a header of another type. -/
def segment? (data : ByteArray) (endian : Endian) (places : Offsets) (start : Nat) :
    Option (Option Segment) := do
  let type ← Bytes.word? data endian 4 start
  let offset ← Bytes.word? data endian places.address (start + places.fileOffset)
  let address ← Bytes.word? data endian places.address (start + places.firstAddress)
  let size ← Bytes.word? data endian places.address (start + places.fileSize)
  return if type = loadType then some ⟨address, offset, size⟩ else none

/-- The image in an ELF file, `none` when its headers cannot be read. -/
def image? (data : ByteArray) : Option Image := do
  let width ← pointerWidth? (← Bytes.word? data .little 1 4)
  let endian ← endian? (← Bytes.word? data .little 1 5)
  let places := offsets width
  let start ← Bytes.word? data endian places.address places.tableStart
  let count ← Bytes.word? data endian 2 places.tableCount
  let segments ← (List.range count).mapM fun k =>
    segment? data endian places (start + k * places.entry)
  return ⟨.elf, data, segments.filterMap id, width, endian⟩

end GlobalMetadata.Elf
