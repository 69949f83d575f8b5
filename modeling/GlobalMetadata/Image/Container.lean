import GlobalMetadata.Image.Elf
import GlobalMetadata.Image.MachO
import GlobalMetadata.Image.PortableExecutable

/-!
# Loading an executable

The first bytes of an executable tell its format. Only the tables that map addresses to bytes are
read; everything else in the file is left alone.
-/

namespace GlobalMetadata

/-- Bytes that are in memory, or in a file that may or may not open. -/
inductive Source
  /-- Bytes in memory. -/
  | memory (data : ByteArray)
  /-- The contents of a file, `none` when it cannot be opened. -/
  | file (contents : Option ByteArray)

/-- The bytes of a source. -/
def Source.bytes : Source → Except Error ByteArray
  | .memory data => .ok data
  | .file (some data) => .ok data
  | .file none => .error .unreadableFile

/-- The bytes of a source, which must not be empty. -/
def Source.contents (source : Source) : Except Error ByteArray := do
  let data ← source.bytes
  if data.size = 0 then throw .empty
  return data

namespace Image

/-- An image whose segments are given. -/
def flat (data : ByteArray) (segments : List Segment) (pointerWidth : PointerWidth)
    (endian : Endian) : Image :=
  ⟨.flat, data, segments, pointerWidth, endian⟩

/-- The number of bytes by which the formats are told apart. -/
def hintSize : Nat :=
  16

/-- The image in an executable file. -/
def ofExecutable (source : Source) : Except Error Image := do
  let data ← source.contents
  let some start := Bytes.slice? data 0 hintSize | throw .unreadableContainer
  let readable (image? : Option Image) : Except Error Image :=
    match image? with
    | some image => .ok image
    | none => .error .unreadableContainer
  if Elf.magic.isPrefixOf start then
    readable (Elf.image? data)
  else if PortableExecutable.magic.isPrefixOf start then
    readable (PortableExecutable.image? data)
  else if MachO.fatMagic.isPrefixOf start then
    throw (.malformed .fatImage)
  else
    match MachO.thin? (start.take 4) with
    | some (width, endian) => readable (MachO.image? data width endian)
    | none => throw (.malformed .container)

end Image

end GlobalMetadata
