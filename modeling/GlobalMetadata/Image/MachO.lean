import GlobalMetadata.Image

/-!
# Mach-O files

The magic number of a Mach-O file tells its address width and its byte order. Behind the header
stand the load commands; those that describe a segment with bytes in the file are kept. A file that
holds several architectures ("fat") has another magic number and is not read.
-/

namespace GlobalMetadata.MachO

/-- The four bytes at the start of a fat file. -/
def fatMagic : List UInt8 :=
  [0xCA, 0xFE, 0xBA, 0xBE]

/-- What the four bytes at the start of a thin file say. -/
def thin? : List UInt8 → Option (PointerWidth × Endian)
  | [0xFE, 0xED, 0xFA, 0xCE] => some (.bits32, .big)
  | [0xCE, 0xFA, 0xED, 0xFE] => some (.bits32, .little)
  | [0xFE, 0xED, 0xFA, 0xCF] => some (.bits64, .big)
  | [0xCF, 0xFA, 0xED, 0xFE] => some (.bits64, .little)
  | _ => none

/-- The size of the file header. -/
def headerSize : PointerWidth → Nat
  | .bits32 => 28
  | .bits64 => 32

/-- The load command that describes a segment. -/
def segmentCommand : PointerWidth → Nat
  | .bits32 => 0x01
  | .bits64 => 0x19

/-- The segment of the load command at `start`, whose bytes have to lie inside the file. -/
def segment? (data : ByteArray) (endian : Endian) (width : PointerWidth) (start : Nat) :
    Option Segment := do
  let w := width.bytes
  let address ← Bytes.word? data endian w (start + 24)
  let offset ← Bytes.word? data endian w (start + 24 + 2 * w)
  let size ← Bytes.word? data endian w (start + 24 + 3 * w)
  guard (size = 0 ∨ offset + size ≤ data.size)
  return ⟨address, offset, size⟩

/-- The segments of `count` load commands from `start` on. -/
def segments? (data : ByteArray) (endian : Endian) (width : PointerWidth) :
    Nat → Nat → Option (List Segment)
  | 0, _ => some []
  | count + 1, start => do
    let command ← Bytes.word? data endian 4 start
    let size ← Bytes.word? data endian 4 (start + 4)
    let rest := segments? data endian width count (start + size)
    if command = segmentCommand width then
      return (← segment? data endian width start) :: (← rest)
    else rest

/-- The image in a thin Mach-O file, `none` when its headers cannot be read. -/
def image? (data : ByteArray) (width : PointerWidth) (endian : Endian) : Option Image := do
  let count ← Bytes.word? data endian 4 16
  let segments ← segments? data endian width count (headerSize width)
  return ⟨.machO, data, segments.filter (0 < ·.size), width, endian⟩

end GlobalMetadata.MachO
