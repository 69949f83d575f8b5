import GlobalMetadata.Config
import GlobalMetadata.Document
import GlobalMetadata.Image

/-!
# Documents of versions, layouts and records

Versions are written as texts. A record is a list of its fields with their values, because the order
of the fields is part of what it says.
-/

namespace GlobalMetadata

open Document

/-! ### Versions -/

instance : Documented Version where
  document v := .text v.text

instance : Documented VersionPair where
  document pair := .object
    [("metadata", .of pair.metadata), ("registration", .of pair.registration),
      ("text", .text pair.text)]

instance : Documented Config where
  document config := .object
    [("metadata_version", .of config.metadataVersion),
      ("registration_version", .of config.registrationVersion),
      ("parallel", .of config.parallel), ("max_generic_depth", .of config.maxGenericDepth),
      ("materialize", .of config.materialize)]

instance : Documented Axis where
  document
    | .metadata => .text "metadata"
    | .registration => .text "registration"

instance : Documented Window where
  document window := .list [.of window.axis, .of window.first, .of window.last]

/-! ### Layouts -/

instance : Documented FieldWidth where
  document
    | .native => .text "NativeInt"
    | .int16 => .text "FixedInt16"
    | .int32 => .text "FixedInt32"
    | .int64 => .text "FixedInt64"
    | .byte => .text "Byte"

instance : Documented PointerWidth where
  document width := .of (8 * width.bytes)

instance : Documented Endian where
  document
    | .little => .text "little"
    | .big => .text "big"

instance : Documented RecordKind where
  document kind := .text kind.name

instance : Documented Field where
  document field := .text field.name

instance : Documented FieldSpec where
  document spec := .list [.of spec.field, .of spec.width, .of spec.windows]

/-! ### Records and places -/

instance : Documented Record where
  document record := .list (record.entries.map fun (field, value) => .list [.of field, .hex value])

instance : Documented SectionId where
  document id := .text id.name

instance : Documented Section where
  document place := .list [.of place.offset, .of place.size]

instance : Documented Segment where
  document segment := .list [.hex segment.address, .hex segment.offset, .hex segment.size]

instance : Documented ImageFormat where
  document
    | .flat => .text "flat"
    | .pe => .text "pe"
    | .elf => .text "elf"
    | .machO => .text "macho"

end GlobalMetadata
