import GlobalMetadata.Cursor
import GlobalMetadata.Layout.Resolved

/-!
# The header of the blob

The blob starts with a magic number and its integer version. The rest of the header holds the start
and the size of every section; which sections there are depends on the version, so that the header
is read through its layout like any other structure.
-/

namespace GlobalMetadata

/-- The header of a blob. -/
structure Header where
  /-- All fields of the header. -/
  record : Record
  version : Nat
  deriving DecidableEq, Repr

namespace Header

/-- The number with which every blob starts. -/
def magic : Nat :=
  0xFAB11BAF

/-- The first two integers of the blob, unchecked. -/
def peek (data : ByteArray) : Except Error (Nat × Nat) := do
  let found ← Bytes.readUInt data .little 4 0
  let version ← Bytes.readUInt data .little 4 4
  return (found, version)

/-- The integer version of data that starts with the magic number. -/
def integerVersion (data : ByteArray) : Except Error Nat := do
  let (found, version) ← peek data
  if found ≠ magic then throw (.malformed (.magic found))
  return version

/-- The header of a blob, read as a pair of versions has it. -/
def read (data : ByteArray) (pair : VersionPair) : Except Error Header := do
  let version ← integerVersion data
  let (record, _) ← readBlobRecord .metadataHeader pair data 0
  return ⟨record, version⟩

/-- The place that the header gives for a section, whether or not it lies inside the blob; `none`
for a section that the version does not have. -/
def declared? (header : Header) (id : SectionId) : Option Section :=
  match header.record.get? id.offsetField, header.record.get? id.sizeField with
  | some offset, some size => some ⟨offset, size⟩
  | _, _ => none

/-- **Locating a section.** The place of a section in a blob of `length` bytes. -/
def locate (header : Header) (id : SectionId) (length : Nat) : Except Error (Option Section) :=
  match header.declared? id with
  | none => .ok none
  | some place =>
    if place.offset + place.size ≤ length then .ok (some place)
    else .error (.corruptSection id place.offset)

end Header

end GlobalMetadata
