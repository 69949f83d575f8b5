import GlobalMetadata.Error

/-!
# Documents

Tables and graphs are handed to other tools as documents: trees of lists and of objects with named
members. The modules below this one say what the members of each type are called; how a document is
put on a line is up to whoever writes it.

* `Documented` is the class of the types whose values have a document, and `Document.of` gives it;
* values of 64 bits are written as hexadecimal texts (`Document.hex`), since a reader may keep fewer
  bits of a number;
* a value that could not be read has its error in its place.
-/

namespace GlobalMetadata

/-- A tree of values for other tools. -/
inductive Document
  /-- Nothing, in the place of a value. -/
  | null
  /-- A truth value. -/
  | flag (value : Bool)
  /-- A number of at most 32 bits. -/
  | number (value : Int)
  /-- A text. -/
  | text (value : String)
  /-- Why there is no value. -/
  | failure (error : Error)
  /-- Values in order. -/
  | list (items : List Document)
  /-- Values by name. -/
  | object (members : List (String × Document))

/-- The types whose values have a document. -/
class Documented (α : Type) where
  /-- The document of a value. -/
  document : α → Document

namespace Document

/-- The document of a value. -/
def of {α : Type} [Documented α] (a : α) : Document :=
  Documented.document a

instance : Documented Document where
  document d := d

instance : Documented Bool where
  document := .flag

instance : Documented Nat where
  document n := .number n

instance : Documented Int where
  document := .number

instance : Documented String where
  document := .text

instance {α : Type} [Documented α] : Documented (Option α) where
  document a := a.elim .null .of

instance {α : Type} [Documented α] : Documented (List α) where
  document items := .list (items.map .of)

instance {α : Type} [Documented α] : Documented (Array α) where
  document items := .of items.toList

instance {α : Type} [Documented α] : Documented (Except Error α) where
  document
    | .ok a => .of a
    | .error e => .failure e

/-! ### Words and bytes -/

/-- The hexadecimal digits of a number. -/
def hexDigits (n : Nat) : List Char :=
  Nat.toDigits 16 n

/-- A value of 64 bits. -/
def hex (n : Nat) : Document :=
  .text (String.ofList ('0' :: 'x' :: hexDigits n))

/-- The two digits of a byte. -/
def byteDigits (b : UInt8) : List Char :=
  [Nat.digitChar (b.toNat / 16), Nat.digitChar (b.toNat % 16)]

/-- A run of bytes. -/
def bytes (run : List UInt8) : Document :=
  .text (String.ofList (run.flatMap byteDigits))

/-- All bytes of a part of a file. -/
def blob (data : ByteArray) : Document :=
  bytes data.data.toList

end Document

end GlobalMetadata
