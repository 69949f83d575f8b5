import GlobalMetadata.Bytes
import GlobalMetadata.Error

/-!
# Reading in sequence

Integers and texts can be read at a given offset, or one after the other with a `Cursor`. A read
that fails leaves the cursor where it was; one that succeeds moves it by exactly the bytes it stands
for.

* `Bytes.readUInt` and `Bytes.readInt` read at an offset;
* `Cursor.uint`, `Cursor.int` and `Cursor.text` read at the cursor and give the moved cursor back.
-/

namespace GlobalMetadata

/-- The integer types that can be read. -/
inductive IntType
  | u8 | i8 | u16 | i16 | u32 | i32 | u64 | i64
  deriving DecidableEq, Repr

namespace IntType

/-- The number of bytes. -/
def width : IntType → Nat
  | .u8 | .i8 => 1
  | .u16 | .i16 => 2
  | .u32 | .i32 => 4
  | .u64 | .i64 => 8

/-- Whether the highest bit is a sign. -/
def isSigned : IntType → Bool
  | .i8 | .i16 | .i32 | .i64 => true
  | _ => false

/-- The number of values. -/
def range : IntType → Nat
  | .u8 | .i8 => UInt8.size
  | .u16 | .i16 => UInt16.size
  | .u32 | .i32 => UInt32.size
  | .u64 | .i64 => UInt64.size

/-- The value of a word of this type. -/
def interpret (type : IntType) (word : Nat) : Int :=
  if type.isSigned then (word : Int).bmod type.range else word

end IntType

namespace Bytes

/-- The unsigned integer of 1, 2, 4 or 8 bytes at `offset`. -/
def readUInt (data : ByteArray) (endian : Endian) (width offset : Nat) : Except Error Nat :=
  if width = 1 ∨ width = 2 ∨ width = 4 ∨ width = 8 then
    match word? data endian width offset with
    | some word => .ok word
    | none => .error .outOfBounds
  else .error (.malformed (.integerWidth width))

/-- The integer of a given type at `offset`. -/
def readInt (data : ByteArray) (endian : Endian) (type : IntType) (offset : Nat) :
    Except Error Int :=
  type.interpret <$> readUInt data endian type.width offset

end Bytes

/-- A position in some bytes, with the byte order in which integers are read. -/
structure Cursor where
  /-- The bytes that are read. -/
  data : ByteArray
  /-- The order of the bytes of an integer. -/
  endian : Endian
  /-- The number of bytes in front of the cursor. -/
  position : Nat

namespace Cursor

/-- A cursor in front of the first byte. -/
def start (data : ByteArray) (endian : Endian) : Cursor :=
  ⟨data, endian, 0⟩

/-- Whether a byte is left. -/
def hasMore (cursor : Cursor) : Bool :=
  cursor.position < cursor.data.size

/-- The cursor behind the next `count` bytes. -/
def advance (cursor : Cursor) (count : Nat) : Cursor :=
  { cursor with position := cursor.position + count }

/-- The next unsigned integer of `width` bytes. -/
def uint (cursor : Cursor) (width : Nat) : Except Error (Nat × Cursor) :=
  (·, cursor.advance width) <$> Bytes.readUInt cursor.data cursor.endian width cursor.position

/-- The next integer of a given type. -/
def int (cursor : Cursor) (type : IntType) : Except Error (Int × Cursor) :=
  (·, cursor.advance type.width) <$> Bytes.readInt cursor.data cursor.endian type cursor.position

/-- The text up to the next zero byte; the cursor moves behind that byte. -/
def text (cursor : Cursor) : Except Error (String × Cursor) :=
  match Bytes.terminated? cursor.data cursor.position with
  | none => .error .outOfBounds
  | some bytes =>
    match Utf8.decode bytes with
    | .ok text => .ok (text, cursor.advance (bytes.length + 1))
    | .error fault => .error (.malformed (.textAtOffset cursor.position fault))

end Cursor

end GlobalMetadata
