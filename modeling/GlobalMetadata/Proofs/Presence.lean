import GlobalMetadata.Detection
import GlobalMetadata.Proofs.Reading

/-!
# Fields that are asked for are there

A record answers a question for a field that its version lacks with an error. That error would not
be about the data: it would mean that a conversion and the declared layout of its structure
disagree. Here it is shown that they never do, for any pair of versions, either pointer width and
whatever bytes are read.

The conversions are compared with the layouts in `GlobalMetadata.Proofs.Conversion` for the rows of
the blob and in `GlobalMetadata.Proofs.Reading` for the structures of the image. What is left is to
collect what else the readers of the blob can end with (`Error.OfDecoding`), detection included: it
reads the image table of a blob that may have been written for another version.
-/

namespace GlobalMetadata

/-- The error is not about a field that a record lacks. -/
def Error.NotOfField : Error → Prop
  | .fieldAbsent .. => False
  | _ => True

/-! ### Decoding and detection -/

/-- The errors that decoding can end with. -/
def Error.OfDecoding : Error → Prop
  | .unsupportedVersion _ | .corruptSection .. | .unmapped _ | .malformed _ | .outOfBounds => True
  | _ => False

theorem Error.OfData.ofDecoding {e : Error} (h : e.OfData) : e.OfDecoding := by
  cases e <;> trivial

theorem Error.OfTables.ofDecoding {pair : VersionPair} {e : Error} (h : e.OfTables pair) :
    e.OfDecoding := by
  rcases h with rfl | h_data
  · trivial
  · exact h_data.ofDecoding

theorem Error.OfDecoding.notOfField {e : Error} (h : e.OfDecoding) : e.NotOfField := by
  cases e <;> trivial

/-- A dangling reference is not about a field either. -/
theorem Error.notOfField_of_recoverable {e : Error} (h : e.isRecoverable = true ∨ e.OfData) :
    e.NotOfField := by
  rcases h with h_recoverable | h_data
  · cases e <;> trivial
  · exact h_data.ofDecoding.notOfField

theorem Bytes.raises_readUInt (data : ByteArray) (endian : Endian) (width offset : Nat) :
    Raises Error.OfData (readUInt data endian width offset) := by
  unfold readUInt
  split
  · split
    · exact .ok _
    · exact .error trivial
  · exact .error trivial

namespace Header

variable (data : ByteArray)

theorem raises_integerVersion : Raises Error.OfData (integerVersion data) := by
  refine ((Bytes.raises_readUInt data _ _ _).bind fun _ =>
    (Bytes.raises_readUInt data _ _ _).bind fun _ => .pure _).bind fun words => ?_
  dsimp only
  split
  · exact .throw trivial
  · exact .pure _

theorem raises_read (pair : VersionPair) : Raises Error.OfDecoding (read data pair) := by
  refine ((raises_integerVersion data).imp fun _ => Error.OfData.ofDecoding).bind fun _ => ?_
  refine Raises.bind (.bind ?_ fun layout => .bind ?_ fun _ => .pure _) fun _ => .pure _
  · exact Raises.imp (P := Error.OfTables pair) (raises_resolve _ _) fun _ =>
      Error.OfTables.ofDecoding
  · exact (raises_readAt layout _ _ _).imp fun _ => Error.OfData.ofDecoding

theorem raises_check (header : Header) (id : SectionId) (length : Nat) :
    Raises Error.OfDecoding (header.check id length) := by
  refine Raises.bind ?_ fun _ => .pure _
  unfold locate
  split
  · exact .ok _
  · split
    · exact .ok _
    · exact .error trivial

theorem raises_forM_check (header : Header) (ids : List SectionId) (length : Nat) :
    Raises Error.OfDecoding (forM ids fun id => header.check id length) := by
  induction ids with
  | nil => exact .pure _
  | cons id ids ih =>
    rw [List.forM_cons]
    exact (header.raises_check id length).bind fun _ => ih

end Header

/-- **Decoding** ends with one of few errors. -/
theorem Metadata.raises_decode (data : ByteArray) (source : RegistrationSource)
    (pair : VersionPair) : Raises Error.OfDecoding (decode data source pair) := by
  cases h_pair : pair.isSupported with
  | false =>
    unfold decode VersionPair.ensureSupported
    rw [h_pair]
    exact .error trivial
  | true =>
    cases h_header : Header.read data pair with
    | error e =>
      unfold decode
      rw [VersionPair.ensureSupported_eq_ok_iff.mpr h_pair, h_header]
      exact .error (Header.raises_read data pair e h_header)
    | ok header =>
      rw [decode_eq h_pair h_header]
      refine (header.raises_forM_check _ _).bind fun _ => Raises.bind ?_ fun _ => .pure _
      exact (Registration.raises_read source pair).imp fun _ => Error.OfTables.ofDecoding

/-- To tell the first two versions of 24 apart, the image table is read as the first of them has
it. -/
theorem Version.raises_detect24 (data : ByteArray) : Raises Error.OfDecoding (detect24 data) := by
  refine ((Bytes.raises_readUInt data _ _ _).imp fun _ => Error.OfData.ofDecoding).bind fun _ => ?_
  split
  · exact .pure _
  · refine (Header.raises_read data _).bind fun header => ?_
    rw [Header.locate_bind_readTable (by decide)]
    exact (header.raises_check _ _).bind fun _ => .pure _

theorem VersionPair.raises_detect (data : ByteArray) (config : Config) :
    Raises Error.OfDecoding (detect data config) := by
  refine ((Header.raises_integerVersion data).imp fun _ => Error.OfData.ofDecoding).bind
    fun version => ?_
  have h_pair (metadata : Version) : Raises Error.OfDecoding (do
      let pair : VersionPair := ⟨metadata, config.registrationVersion.getD metadata⟩
      pair.ensureSupported
      return pair) :=
    (raises_ensureSupported.imp fun _ => Error.OfTables.ofDecoding).bind fun _ => .pure _
  split
  · exact h_pair _
  · refine Raises.bind ?_ h_pair
    unfold Version.ofInteger
    split
    · exact .error trivial
    · split
      · exact Version.raises_detect24 data
      · exact .ok _

/-! ### Conversions -/

/-- The conversion that a record of a kind goes through, run for its errors only. The header is read
section by section instead, and generic contexts are not read at all. -/
def RecordKind.convert (image : Image) (record : Record) : RecordKind → Except Error Unit
  | .metadataHeader | .genericContext => .ok ()
  | .imageDefinition => run (Row.ofRecord (α := ImageDefinition))
  | .assemblyDefinition => run (Row.ofRecord (α := AssemblyDefinition))
  | .typeDefinition => run (Row.ofRecord (α := TypeDefinition))
  | .methodDefinition => run (Row.ofRecord (α := MethodDefinition))
  | .parameterDefinition => run (Row.ofRecord (α := ParameterDefinition))
  | .fieldDefinition => run (Row.ofRecord (α := FieldDefinition))
  | .propertyDefinition => run (Row.ofRecord (α := PropertyDefinition))
  | .eventDefinition => run (Row.ofRecord (α := EventDefinition))
  | .fieldDefaultValue => run (Row.ofRecord (α := FieldDefaultValue))
  | .parameterDefaultValue => run (Row.ofRecord (α := ParameterDefaultValue))
  | .fieldMarshaledSize => run (Row.ofRecord (α := FieldMarshaledSize))
  | .genericContainer => run (Row.ofRecord (α := GenericContainer))
  | .genericParameter => run (Row.ofRecord (α := GenericParameter))
  | .customAttributeTypeRange => run (Row.ofRecord (α := CustomAttributeTypeRange))
  | .customAttributeDataRange => run (Row.ofRecord (α := CustomAttributeDataRange))
  | .fieldRef => run (Row.ofRecord (α := FieldRef))
  | .stringLiteral => run (Row.ofRecord (α := StringLiteral))
  | .codeRegistration => run CodeRegistration.ofRecord
  | .metadataRegistration => run MetadataRegistration.ofRecord
  | .typeDescriptor => run fun r => do Descriptor.unpack (← r.uint32 .bits) (← r.get .datapoint)
  | .genericClass => run GenericClass.ofRecord
  | .genericInst => run GenericInst.ofRecord
  | .arrayType => run ArrayShape.ofRecord
  | .methodSpec => run MethodSpec.ofRecord
  | .genericMethodFunctions => run GenericMethod.ofRecord
  | .codeGenModule => run (CodeModule.ofRecord image)
where
  /-- The conversion without its value. -/
  run {α : Type} (ofRecord : Record → Except Error α) : Except Error Unit :=
    (fun _ => ()) <$> ofRecord record

/-- Rows convert whatever their values are; what the image stores may be out of place. -/
theorem RecordKind.raises_convert {kind : RecordKind} {pair : VersionPair} (image : Image)
    {record : Record} (h : record.IsOf kind pair) :
    Raises (fun e => e.isRecoverable = true ∨ e.OfData) (kind.convert image record) := by
  have h_converts {α : Type} {ofRecord : Record → Except Error α} (h_all : kind.Converts ofRecord) :
      Raises (fun e => e.isRecoverable = true ∨ e.OfData) (convert.run record ofRecord) :=
    (Raises.of_exists_ok (h_all h)).map
  have h_row {α : Type} [Row α] [LawfulRow α] (h_kind : Row.kind α = kind) :
      Raises (fun e => e.isRecoverable = true ∨ e.OfData)
        (convert.run record (Row.ofRecord (α := α))) :=
    h_converts (h_kind ▸ converts_row α)
  cases kind with
  | metadataHeader | genericContext => exact .ok _
  | codeRegistration => exact h_converts converts_codeRegistration
  | metadataRegistration => exact h_converts converts_metadataRegistration
  | typeDescriptor => exact ((raises_descriptor h).imp fun _ => .inr).map
  | genericClass => exact ((raises_genericClass h).imp fun _ => .inl).map
  | genericInst => exact h_converts converts_genericInst
  | arrayType => exact h_converts converts_arrayShape
  | methodSpec => exact h_converts converts_methodSpec
  | genericMethodFunctions => exact h_converts converts_genericMethod
  | codeGenModule => exact ((raises_codeModule image h).imp fun _ => .inr).map
  | _ => exact h_row rfl

/-! ### The result -/

/-- **No field is ever missing.** Neither decoding, with given or with detected versions, nor
reading the registration tables, nor following an address from them ever asks a record for a field
that it lacks. This holds for all blobs, images and pairs of versions, because it holds for each
conversion by itself: a record that was read with the layout of its kind, from whatever bytes and
for pointers of either width, has every field that its conversion insists on. -/
theorem fieldAbsent_unreachable (data : ByteArray) (source : RegistrationSource)
    (pair : VersionPair) :
    Raises Error.NotOfField (Metadata.decode data source pair) ∧
    (∀ config, Raises Error.NotOfField (Metadata.load data source config)) ∧
    Raises Error.NotOfField (Registration.read source pair) ∧
    (∀ address,
      Raises Error.NotOfField (Registration.read source pair >>= (·.genericClassAt address)) ∧
      Raises Error.NotOfField (Registration.read source pair >>= (·.genericInstAt address)) ∧
      Raises Error.NotOfField (Registration.read source pair >>= (·.arrayTypeAt address)) ∧
      Raises Error.NotOfField (Registration.read source pair >>= (·.typeAt address))) ∧
    ∀ (kind : RecordKind) width endian bytes, Raises Error.NotOfField (do
      let layout ← kind.resolve pair width
      kind.convert source.image (← layout.read endian bytes)) := by
  have h_decode (pair : VersionPair) : Raises Error.NotOfField (Metadata.decode data source pair) :=
    (Metadata.raises_decode data source pair).imp fun _ h => h.notOfField
  have h_tables : Raises Error.NotOfField (Registration.read source pair) :=
    (Registration.raises_read source pair).imp fun _ h => h.ofDecoding.notOfField
  have h_data {α : Type} {x : Except Error α} (h : Raises Error.OfData x) :
      Raises Error.NotOfField x :=
    h.imp fun _ h_e => h_e.ofDecoding.notOfField
  -- what is followed from the tables is read with the layouts of its kinds
  have h_follow {α : Type} {follow : Registration → Except Error α}
      (h : ∀ tables : Registration, tables.layouts.IsFor pair source.image.pointerWidth →
        Raises Error.NotOfField (follow tables)) :
      Raises Error.NotOfField (Registration.read source pair >>= follow) :=
    h_tables.bind_of_ok fun tables h_read => h tables (Registration.isFor_of_read h_read)
  refine ⟨h_decode pair, fun config => ?_, h_tables, fun address => ⟨?_, ?_, ?_, ?_⟩, ?_⟩
  · have h_detect := (VersionPair.raises_detect data config).imp fun _ h => h.notOfField
    exact h_detect.bind h_decode
  · exact h_follow fun _ h => (Registration.raises_genericClassAt h address).imp fun _ =>
      Error.notOfField_of_recoverable
  · exact h_follow fun _ h => h_data (Registration.raises_genericInstAt h address)
  · exact h_follow fun _ h => h_data (Registration.raises_arrayTypeAt h address)
  · exact h_follow fun _ h => h_data (Registration.raises_typeAt h address)
  · intro kind width endian bytes
    have h_resolve : Raises Error.NotOfField (kind.resolve pair width) :=
      (raises_resolve kind width).imp fun _ h => h.ofDecoding.notOfField
    refine h_resolve.bind_of_ok fun layout h_layout => ?_
    refine (h_data (raises_read layout endian bytes)).bind_of_ok fun record h_record => ?_
    have h_record := ResolvedLayout.isOf_of_read h_layout h_record
    exact (RecordKind.raises_convert source.image h_record).imp fun _ =>
      Error.notOfField_of_recoverable

end GlobalMetadata
