/-!
# Bytes and integers

A file is a `ByteArray`. Everything that is read from one goes through `Bytes.slice?`, which gives a
run of bytes only if all of it lies inside. Runs of bytes are lists, and integers are read from and
written to them in either byte order.

* `Endian.decode` and `Endian.encode` turn bytes into numbers and back;
* `asInt32`, `asIndex` and their relatives read a stored number as the field at hand means it;
* `Bytes.terminated?` finds the bytes in front of the next zero byte.
-/

namespace GlobalMetadata

/-! ### Word sizes -/

/-- The order of the bytes of an integer. -/
inductive Endian
  /-- The least significant byte comes first. -/
  | little
  /-- The most significant byte comes first. -/
  | big
  deriving DecidableEq, Repr

/-- The width of a pointer of a native image. -/
inductive PointerWidth
  /-- Four bytes. -/
  | bits32
  /-- Eight bytes. -/
  | bits64
  deriving DecidableEq, Repr

/-- The number of bytes of a pointer. -/
def PointerWidth.bytes : PointerWidth → Nat
  | .bits32 => 4
  | .bits64 => 8

/-- Sizes, offsets and addresses are 64 bits wide: none of them reaches this number. -/
def addressLimit : Nat :=
  UInt64.size

/-! ### Integers as bytes -/

namespace Endian

/-- The number whose bytes are given, least significant first. -/
def decodeLittle : List UInt8 → Nat
  | [] => 0
  | b :: rest => b.toNat + 256 * decodeLittle rest

/-- The `width` low bytes of a number, least significant first. -/
def encodeLittle : Nat → Nat → List UInt8
  | 0, _ => []
  | width + 1, n => UInt8.ofNat n :: encodeLittle width (n / 256)

/-- The number that a run of bytes stands for. -/
def decode (endian : Endian) (bytes : List UInt8) : Nat :=
  match endian with
  | .little => decodeLittle bytes
  | .big => decodeLittle bytes.reverse

/-- The `width` low bytes of a number. -/
def encode (endian : Endian) (width n : Nat) : List UInt8 :=
  match endian with
  | .little => encodeLittle width n
  | .big => (encodeLittle width n).reverse

@[simp] theorem length_encodeLittle (width n : Nat) : (encodeLittle width n).length = width := by
  induction width generalizing n with
  | zero => rfl
  | succ width ih => simp [encodeLittle, ih]

@[simp] theorem length_encode (endian : Endian) (width n : Nat) :
    (endian.encode width n).length = width := by
  cases endian <;> simp [encode]

end Endian

/-! ### What a stored number means -/

/-- The low 32 bits. -/
def asUInt32 (n : Nat) : Nat :=
  n % UInt32.size

/-- The low 16 bits. -/
def asUInt16 (n : Nat) : Nat :=
  n % UInt16.size

/-- The low 8 bits. -/
def asUInt8 (n : Nat) : Nat :=
  n % UInt8.size

/-- The low 32 bits as a signed number. -/
def asInt32 (n : Nat) : Int :=
  (n : Int).bmod UInt32.size

/-- The low 16 bits as a signed number. -/
def asInt16 (n : Nat) : Int :=
  (n : Int).bmod UInt16.size

/-- A signed number as an index; a negative one points nowhere. -/
def toIndex? : Int → Option Nat
  | .ofNat n => some n
  | .negSucc _ => none

/-- The low 32 bits as an index into a table; negative ones (usually `-1`) point nowhere. -/
def asIndex (n : Nat) : Option Nat :=
  toIndex? (asInt32 n)

/-! ### Runs of bytes -/

namespace Bytes

/-- The part of the data that starts at `offset` and is `length` bytes long, if it lies inside. -/
def part? (data : ByteArray) (offset length : Nat) : Option ByteArray :=
  if offset + length ≤ data.size then some (data.extract offset (offset + length)) else none

/-- The `length` bytes from `offset` on, if all of them lie inside the data. -/
def slice? (data : ByteArray) (offset length : Nat) : Option (List UInt8) :=
  (part? data offset length).map (·.data.toList)

/-- The unsigned integer of `width` bytes at `offset`, if it lies inside the data. -/
def word? (data : ByteArray) (endian : Endian) (width offset : Nat) : Option Nat :=
  (slice? data offset width).map endian.decode

/-- The position of the first zero byte among the `fuel` bytes from `i` on. -/
def zeroWithin? (data : ByteArray) : Nat → Nat → Option Nat
  | 0, _ => none
  | fuel + 1, i =>
    if inside : i < data.size then
      if data.get i inside = 0 then some i else zeroWithin? data fuel (i + 1)
    else none

/-- **Terminated runs.** The bytes from `start` up to the next zero byte, `none` when the data ends
before there is one. -/
def terminated? (data : ByteArray) (start : Nat) : Option (List UInt8) :=
  match zeroWithin? data (data.size - start) start with
  | none => none
  | some stop => slice? data start (stop - start)

/-- The first `count` pieces of `size` bytes each. -/
def chunks (size count : Nat) (bytes : List UInt8) : List (List UInt8) :=
  match count with
  | 0 => []
  | count + 1 => bytes.take size :: chunks size count (bytes.drop size)

@[simp] theorem length_chunks (size count : Nat) (bytes : List UInt8) :
    (chunks size count bytes).length = count := by
  induction count generalizing bytes with
  | zero => rfl
  | succ count ih => simp [chunks, ih]

end Bytes

end GlobalMetadata
