import GlobalMetadata.Header
import GlobalMetadata.Row

/-!
# Tables

A section is read as rows, as indices, or as it is. A table has as many rows as fit into the section
whole; what is left over at its end is ignored. A section that the version does not have reads as an
empty one.
-/

namespace GlobalMetadata

/-- The rows of a section. -/
def readTable (α : Type) [Row α] (data : ByteArray) (id : SectionId) (place : Option Section)
    (pair : VersionPair) : Except Error (List α) := do
  let some place := place | return []
  let layout ← (Row.kind α).resolve pair .bits32
  if layout.size = 0 then
    return []
  match layout.readArray data .little place.offset (place.size / layout.size) with
  | .ok records => records.mapM Row.ofRecord
  | .error _ => throw (.corruptSection id place.offset)

/-- The signed 32-bit indices of a section. -/
def readIndices (data : ByteArray) (id : SectionId) (place : Option Section) :
    Except Error (List Int) := do
  let some place := place | return []
  match Bytes.slice? data place.offset place.size with
  | some bytes =>
    return (Bytes.chunks 4 (place.size / 4) bytes).map fun word =>
      asInt32 (Endian.little.decode word)
  | none => throw (.corruptSection id place.offset)

end GlobalMetadata
