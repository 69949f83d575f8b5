import GlobalMetadata.Proofs.Blob

/-!
# Decoding undoes writing

Whatever is in the sections of a blob, decoding the blob gives it back: the rows of every table in
order, every index as the same signed number, and every run of bytes as it is
(`Metadata.decode_blob`). This covers all versions, all sections and tables of any length at once,
since the places of the sections and the sizes of the rows never have to be known.
-/

namespace GlobalMetadata

/-- The rows are what the values of a table convert to, in order. -/
def HoldsRows {α : Type} [Row α] (pair : VersionPair) (rows : Array α)
    (table : List (Field → Nat)) : Prop :=
  table.mapM (fun values => Row.ofRecord (((Row.kind α).blobLayout pair).record values)) =
    .ok rows.toList

/-- What decoded metadata has of a section. Where interfaces start in the dispatch tables is not
kept. -/
def Metadata.Holds (metadata : Metadata) : (id : SectionId) → id.shape.Content → Prop
  | .stringLiterals => HoldsRows metadata.pair metadata.literals.rows
  | .stringLiteralData => (metadata.literals.data.data.toList = ·)
  | .strings => (metadata.strings.data.data.toList = ·)
  | .events => HoldsRows metadata.pair metadata.events
  | .properties => HoldsRows metadata.pair metadata.properties
  | .methods => HoldsRows metadata.pair metadata.methods
  | .parameterDefaultValues => HoldsRows metadata.pair metadata.parameterDefaultValues
  | .fieldDefaultValues => HoldsRows metadata.pair metadata.fieldDefaultValues
  | .fieldAndParameterDefaultValueData => (metadata.defaultValueData.data.toList = ·)
  | .fieldMarshaledSizes => HoldsRows metadata.pair metadata.fieldMarshaledSizes
  | .parameters => HoldsRows metadata.pair metadata.parameters
  | .fields => HoldsRows metadata.pair metadata.fields
  | .genericParameters => HoldsRows metadata.pair metadata.genericParameters
  | .genericParameterConstraints => (metadata.genericParameterConstraints.toList = ·)
  | .genericContainers => HoldsRows metadata.pair metadata.genericContainers
  | .nestedTypes => (metadata.nestedTypes.toList = ·)
  | .interfaces => (metadata.interfaces.toList = ·)
  | .vtableMethods => (metadata.vtableMethods.toList = ·)
  | .interfaceOffsets => fun _ => True
  | .typeDefinitions => HoldsRows metadata.pair metadata.typeDefinitions
  | .images => HoldsRows metadata.pair metadata.images
  | .assemblies => HoldsRows metadata.pair metadata.assemblies
  | .fieldRefs => HoldsRows metadata.pair metadata.fieldRefs
  | .referencedAssemblies => (metadata.referencedAssemblies.toList = ·)
  | .attributeTypeRanges => HoldsRows metadata.pair metadata.attributeTypeRanges
  | .attributeTypes => (metadata.attributeTypes.toList = ·)
  | .attributeData => (metadata.attributeData.data.toList = ·)
  | .attributeDataRanges => HoldsRows metadata.pair metadata.attributeDataRanges
  | .exportedTypeDefinitions => (metadata.exportedTypeDefinitions.toList = ·)

/-! ### One section -/

section Sections

variable {pair : VersionPair} {bytes : List UInt8}

/-- Rows that were written are read again. -/
theorem holdsRows_of_eq_encode {α : Type} [Row α] [LawfulRow α] {table : List (Field → Nat)}
    (h_fits : (Shape.rows (Row.kind α)).Fits pair table)
    (h_bytes : bytes = (Shape.rows (Row.kind α)).encode pair table) :
    HoldsRows pair (rowsOf α pair bytes).toArray table := by
  rw [h_bytes]
  exact mapM_ofRecord_eq_rowsOf pair h_fits

/-- Indices that were written are read again. -/
theorem indicesOf_of_eq_encode {table : List Int} (h_fits : Shape.indices.Fits pair table)
    (h_bytes : bytes = Shape.indices.encode pair table) :
    (indicesOf bytes).toArray.toList = table := by
  rw [h_bytes]
  exact indicesOf_flatMap h_fits

end Sections

/-- **Every section.** The tables of some bytes hold what the bytes were written from. -/
theorem Metadata.holds_ofSections {pair : VersionPair} (header : Header)
    {bytes : SectionId → List UInt8} (registration : Registration) {id : SectionId}
    {content : id.shape.Content} (h_fits : id.shape.Fits pair content)
    (h_bytes : bytes id = id.shape.encode pair content) :
    (ofSections pair header bytes registration).Holds id content := by
  cases id with
  | genericParameterConstraints | nestedTypes | interfaces | vtableMethods | referencedAssemblies
  | attributeTypes | exportedTypeDefinitions => exact indicesOf_of_eq_encode h_fits h_bytes
  | stringLiteralData | strings | fieldAndParameterDefaultValueData | attributeData =>
    exact h_bytes
  | interfaceOffsets => trivial
  | _ => exact holdsRows_of_eq_encode h_fits h_bytes

/-! ### The whole blob -/

/-- **Decoding undoes writing.** The blob of any draft is decoded, as long as the registration
tables can be read, and the result holds the contents of every section, none for a section that the
version does not have. -/
theorem Metadata.decode_blob {draft : Draft} (h : draft.Fits) {source : RegistrationSource}
    {registration : Registration}
    (h_registration : Registration.read source draft.pair = .ok registration) :
    ∃ metadata, decode draft.blob source draft.pair = .ok metadata ∧
      metadata.pair = draft.pair ∧ metadata.header = draft.header ∧
      metadata.registration = registration ∧ ∀ id, metadata.Holds id (draft.present id) := by
  refine ⟨_, decode_eq_ok h.supported (Draft.read_blob h) (fun _ _ => Draft.inside_blob)
    h_registration, rfl, rfl, rfl, fun id => ?_⟩
  exact holds_ofSections draft.header registration (Draft.fits_present h id) (draft.bytesOf_blob id)

/-- The values of two fields. -/
def Draft.sampleFields : List (Field → Nat) :=
  [fun _ => 7, fun field => if field = .nameIndex then 3 else 0]

/-- Two fields, two nested types, one of them missing, and a short heap of names. -/
def Draft.sample : Draft where
  pair := ⟨⟨27, 1⟩, ⟨29, 0⟩⟩
  contents
    | .fields => sampleFields
    | .nestedTypes => [-1, 3]
    | .strings => [104, 105, 0]
    | id => id.shape.empty
  others _ := 0

theorem Draft.fits_sample : Draft.sample.Fits where
  supported := by decide
  contents id _ := by
    cases id with
    | fields =>
      show ∀ row ∈ sampleFields,
        ∀ spec ∈ (RecordKind.fieldDefinition.blobLayout sample.pair).fields,
          row spec.field < 256 ^ spec.width.bytes .bits32
      decide
    | nestedTypes =>
      show ∀ index ∈ ([-1, 3] : List Int), -2 ^ 31 ≤ index ∧ index < 2 ^ 31
      decide
    | strings => trivial
    | _ => exact Shape.fits_empty _ _
  others _ := Nat.two_pow_pos 32
  length := by decide +kernel

/-- What `Draft.sample` is decoded to. -/
theorem Metadata.decode_blob_sample : ∃ metadata,
    decode Draft.sample.blob .zeros Draft.sample.pair = .ok metadata ∧
      metadata.fields = #[⟨7, some 7, some 7⟩, ⟨3, some 0, some 0⟩] ∧
      metadata.nestedTypes = #[-1, 3] ∧ metadata.strings.data.data = #[104, 105, 0] ∧
      metadata.attributeDataRanges = #[] := by
  have h_read : (Registration.read .zeros Draft.sample.pair).toOption.isSome = true := by
    decide +kernel
  cases h_registration : Registration.read .zeros Draft.sample.pair with
  | error e =>
    rw [h_registration] at h_read
    cases h_read
  | ok registration =>
    obtain ⟨metadata, h_decode, h_pair, -, -, h_holds⟩ :=
      decode_blob Draft.fits_sample h_registration
    refine ⟨metadata, h_decode, ?_, ?_, ?_, ?_⟩
    · have h_fields : HoldsRows metadata.pair metadata.fields Draft.sampleFields :=
        h_holds .fields
      rw [HoldsRows, h_pair] at h_fields
      have h_rows : (Draft.sampleFields.mapM fun values => (Row.ofRecord
          ((RecordKind.fieldDefinition.blobLayout Draft.sample.pair).record values) :
            Except Error FieldDefinition)).toOption =
          some [⟨7, some 7, some 7⟩, ⟨3, some 0, some 0⟩] := by decide
      have h_list := (congrArg Except.toOption h_fields).symm.trans h_rows
      exact Array.toList_inj.mp (Option.some.inj h_list)
    · exact Array.toList_inj.mp (h_holds .nestedTypes)
    · exact Array.toList_inj.mp (h_holds .strings)
    · -- the version does not have this section
      have h_ranges : HoldsRows metadata.pair metadata.attributeDataRanges [] :=
        h_holds .attributeDataRanges
      exact Array.toList_inj.mp (Except.ok.inj h_ranges).symm

end GlobalMetadata
