import GlobalMetadata.Detection
import GlobalMetadata.Proofs.Blob

/-!
# Detected revisions

Several layouts of the blob share one integer version, and detection tells only some of them apart.
For the others it reports the first one with the same integer and the same header. That does no harm
as long as no structure differs between the two.

Reading a table depends on the version through the fields that are present
(`rowsOf_congr`), so that the question is decided by the declared layouts alone
(`present_detected_iff`). It turns out that there is one such structure: assemblies lost a field
after 24.3, but 24.4 and 24.5 are taken for 24.2. What that means for decoding is
`Metadata.load_detected`.
-/

namespace GlobalMetadata

/-! ### Same fields, same rows -/

section Congruence

variable {pair pair' : VersionPair}

theorem size_blobLayout_congr {kind : RecordKind}
    (h : (Layout.of kind).present pair = (Layout.of kind).present pair') :
    (kind.blobLayout pair').size = (kind.blobLayout pair).size :=
  congrArg (ResolvedLayout.totalWidth .bits32) h.symm

/-- A layout with the same fields reads the same record, but for the version that it carries. -/
theorem read_blobLayout_congr {kind : RecordKind}
    (h : (Layout.of kind).present pair = (Layout.of kind).present pair') (bytes : List UInt8) :
    (kind.blobLayout pair').read .little bytes =
      (kind.blobLayout pair).read .little bytes >>= fun record =>
        .ok { record with version := pair'.on kind.axis } := by
  unfold ResolvedLayout.read RecordKind.blobLayout ResolvedLayout.size
  dsimp only
  rw [h]
  split <;> rfl

/-- **Rows** depend on the version through the fields that are present. -/
theorem rowsOf_congr {α : Type} [Row α] [LawfulRow α]
    (h : (Layout.of (Row.kind α)).present pair = (Layout.of (Row.kind α)).present pair')
    (bytes : List UInt8) : rowsOf α pair' bytes = rowsOf α pair bytes := by
  let layout := (Row.kind α).blobLayout pair
  unfold rowsOf
  dsimp only
  rw [size_blobLayout_congr h]
  congr 1
  funext piece
  rw [read_blobLayout_congr h]
  by_cases h_piece : layout.size ≤ piece.length
  · obtain ⟨record, row, h_record, h_row, h_row'⟩ :=
      exists_row (α := α) pair h_piece (pair'.on (Row.kind α).axis)
    rw [h_record]
    show (Row.ofRecord _ : Except Error α).toOption =
      (Row.ofRecord record : Except Error α).toOption
    rw [h_row, h_row']
  · have h_short : layout.read .little piece = .error .outOfBounds :=
      if_pos (Nat.not_le.mp h_piece)
    rw [h_short]
    rfl

/-- **The header** depends on the version through the fields that are present. -/
theorem Header.read_congr {data : ByteArray} {header : Header} (h_pair : pair.isSupported = true)
    (h_pair' : pair'.isSupported = true)
    (h : (Layout.of .metadataHeader).present pair = (Layout.of .metadataHeader).present pair')
    (h_header : Header.read data pair = .ok header) :
    Header.read data pair' =
      .ok { header with record := { header.record with version := pair'.metadata } } := by
  obtain ⟨h_version, h_record⟩ := (Header.read_eq_ok_iff h_pair).mp h_header
  obtain ⟨bytes, h_bytes, h_read⟩ := ResolvedLayout.readAt_eq_ok_iff.mp h_record
  refine (Header.read_eq_ok_iff h_pair').mpr ⟨h_version, ?_⟩
  refine ResolvedLayout.readAt_eq_ok_iff.mpr ⟨bytes, ?_, ?_⟩
  · rw [size_blobLayout_congr h, h_bytes]
  · rw [read_blobLayout_congr h, h_read]
    rfl

end Congruence

/-! ### What is detected -/

namespace Version

/-- The version that is reported for a blob of some version. -/
def detected (version : Version) : Version :=
  if version.major = 24 then ⟨24, 2⟩ else ⟨version.major, 0⟩

/-- The versions whose assemblies are read as those of another one. -/
def isMistaken (version : Version) : Bool :=
  version = ⟨24, 4⟩ || version = ⟨24, 5⟩

/-- The layouts of 24 with the longer header. -/
def hasLongHeader (version : Version) : Bool :=
  version = ⟨24, 0⟩ || version = ⟨24, 1⟩

variable {version : Version}

theorem isSupported_detected (h : version.isSupported = true) :
    version.detected.isSupported = true := by
  have h_all : supported.all (·.detected.isSupported) = true := by decide
  exact List.all_eq_true.mp h_all version (List.contains_iff_mem.mp h)

end Version

/-- **The structures of the blob** that differ between a version and the one that is reported for
it. -/
theorem present_detected_iff {pair : VersionPair} (h : pair.metadata.isSupported = true)
    (h_short : pair.metadata.hasLongHeader = false) {kind : RecordKind}
    (h_axis : kind.axis = .metadata) :
    (Layout.of kind).present pair = (Layout.of kind).present (.uniform pair.metadata.detected) ↔
      ¬ (kind = .assemblyDefinition ∧ pair.metadata.isMistaken = true) := by
  have h_kind : kind ∈ RecordKind.all := by cases kind <;> decide
  have h_all : ∀ version ∈ Version.supported, version.hasLongHeader = false →
      ∀ kind ∈ RecordKind.all, kind.axis = .metadata →
        ((Layout.of kind).present (.uniform version) =
            (Layout.of kind).present (.uniform version.detected) ↔
          ¬ (kind = .assemblyDefinition ∧ version.isMistaken = true)) := by
    decide +kernel
  have h_pair : (Layout.of kind).present pair = (Layout.of kind).present (.uniform pair.metadata) :=
    RecordKind.present_congr (h_axis ▸ rfl)
  rw [h_pair]
  exact h_all pair.metadata (List.contains_iff_mem.mp h) h_short kind h_kind h_axis

/-! ### Detection -/

/-- **The third field** of the header, where the string literals start, stands at 8. -/
theorem readUInt_stringLiteralOffset {data : ByteArray} {layout : ResolvedLayout}
    {specs : List FieldSpec} {record : Record} {offset : Nat}
    (h_fields : layout.fields =
      .int32 .sanity :: .int32 .version :: .int32 .stringLiteralOffset :: specs)
    (h_record : layout.readAt data .little 0 = .ok record)
    (h_offset : record.get? .stringLiteralOffset = some offset) :
    Bytes.readUInt data .little 4 8 = .ok offset := by
  obtain ⟨bytes, h_bytes, h_read⟩ := ResolvedLayout.readAt_eq_ok_iff.mp h_record
  have h_size : layout.size =
      4 + (4 + (4 + ResolvedLayout.totalWidth layout.pointerWidth specs)) := by
    rw [ResolvedLayout.size, h_fields]
    rfl
  have h_inside := Bytes.le_size_of_slice? h_bytes
  rw [Bytes.slice?_eq_some h_inside, List.drop_zero] at h_bytes
  -- the record has the field, and its value is decoded from the bytes at 8
  have h_word : Endian.little.decode (((bytes.drop 4).drop 4).take 4) = offset := by
    unfold ResolvedLayout.read at h_read
    split at h_read
    next => cases h_read
    next =>
      rw [h_fields] at h_read
      cases h_read
      exact Option.some.inj h_offset
  rw [← Option.some.inj h_bytes, List.drop_drop, List.drop_take, List.take_take,
    Nat.min_eq_left (by omega)] at h_word
  rw [Bytes.readUInt, if_pos (by decide), Bytes.word?, Bytes.slice?_eq_some (by omega),
    Option.map_some, h_word]

/-- A blob that was written for a version: its header names the version, the string literals follow
right behind it, and no section reaches outside. -/
structure WrittenFor (pair : VersionPair) (header : Header) (data : ByteArray) : Prop where
  read : Header.read data pair = .ok header
  version : header.version = pair.metadata.major.toNat
  literals : header.record.get? .stringLiteralOffset =
    some (RecordKind.metadataHeader.blobLayout pair).size
  inside : ∀ id place, header.declared? id = some place → place.offset + place.size ≤ data.size

/-- The other layouts of 24 have the header that detection expects of 24.2. -/
theorem size_of_shared {pair : VersionPair} (h : pair.metadata.isSupported = true)
    (h_short : pair.metadata.hasLongHeader = false) (h_shared : pair.metadata.major = 24) :
    (RecordKind.metadataHeader.blobLayout pair).size = Version.headerSize24_2 := by
  have h_all : ∀ version ∈ Version.supported, version.hasLongHeader = false → version.major = 24 →
      (RecordKind.metadataHeader.blobLayout (.uniform version)).size = Version.headerSize24_2 := by
    decide
  have h_present : (Layout.of .metadataHeader).present (.uniform pair.metadata) =
      (Layout.of .metadataHeader).present pair := RecordKind.present_congr rfl
  rw [size_blobLayout_congr h_present]
  exact h_all pair.metadata (List.contains_iff_mem.mp h) h_short h_shared

/-- **Detection.** A blob that was written for a version is reported as one for the detected
version. -/
theorem detect_eq {pair : VersionPair} {header : Header} {data : ByteArray} {config : Config}
    (h : WrittenFor pair header data) (h_pair : pair.isSupported = true)
    (h_short : pair.metadata.hasLongHeader = false) (h_metadata : config.metadataVersion = none)
    (h_registration : config.registrationVersion = none) :
    VersionPair.detect data config = .ok (.uniform pair.metadata.detected) := by
  obtain ⟨h_supported, -⟩ := Bool.and_eq_true_iff.mp h_pair
  obtain ⟨h_integer, h_record⟩ := (Header.read_eq_ok_iff h_pair).mp h.read
  obtain ⟨specs, h_fields⟩ : ∃ specs, (RecordKind.metadataHeader.blobLayout pair).fields =
      .int32 .sanity :: .int32 .version :: .int32 .stringLiteralOffset :: specs := ⟨_, rfl⟩
  have h_literals := readUInt_stringLiteralOffset h_fields h_record h.literals
  have h_detected : Version.ofInteger data pair.metadata.major.toNat =
      .ok pair.metadata.detected := by
    unfold Version.ofInteger Version.detected
    rw [if_neg (Nat.not_le.mpr (UInt16.toNat_lt _))]
    have h_toNat : pair.metadata.major.toNat = Version.shared ↔ pair.metadata.major = 24 :=
      UInt16.toNat_inj (b := 24)
    by_cases h_shared : pair.metadata.major = 24
    · -- among the layouts of 24, the size of the header decides
      have h_size := size_of_shared h_supported h_short h_shared
      rw [if_pos h_shared, if_pos (h_toNat.mpr h_shared)]
      unfold Version.detect24
      rw [h_literals, h_size]
      rfl
    · rw [if_neg h_shared, if_neg (mt h_toNat.mp h_shared), UInt16.ofNat_toNat]
  have h_ensure : (VersionPair.uniform pair.metadata.detected).ensureSupported = .ok () := by
    refine VersionPair.ensureSupported_eq_ok_iff.mpr (Bool.and_eq_true_iff.mpr ⟨?_, ?_⟩)
    all_goals exact Version.isSupported_detected h_supported
  unfold VersionPair.detect
  rw [h_integer, h.version, h_metadata, h_registration]
  show (Version.ofInteger data pair.metadata.major.toNat >>= fun version => _) = _
  rw [h_detected]
  show ((VersionPair.uniform pair.metadata.detected).ensureSupported >>= fun _ => _) = _
  rw [h_ensure]
  rfl

/-! ### Decoding for the detected version -/

/-- An assembly has the place of its hash exactly if its version has. -/
theorem isSome_hashValueIndex_iff {pair : VersionPair} {bytes : List UInt8}
    {row : AssemblyDefinition} (h : row ∈ rowsOf AssemblyDefinition pair bytes) :
    row.name.hashValueIndex.isSome = true ↔
      Field.hashValueIndex ∈ ((Layout.of .assemblyDefinition).present pair).map (·.field) := by
  obtain ⟨record, h_fields, h_row⟩ := exists_record_of_mem_rowsOf h
  have h_has : record.Has RecordKind.assemblyDefinition.permanent := by
    refine Record.has_of_forall_mem fun field h_field => ?_
    rw [h_fields]
    exact RecordKind.mem_present_of_permanent h_field pair
  have h_hash : row.name.hashValueIndex = record.uint32? .hashValueIndex := by
    simp (disch := decide) only [Row.ofRecord, AssemblyName.ofRecord, Record.uint32, Record.int32,
      Record.get_eq_value h_has] at h_row
    cases h_row
    rfl
  rw [h_hash, Record.uint32?]
  show (Option.map asUInt32 (record.get? .hashValueIndex)).isSome = true ↔ _
  rw [Option.isSome_map, Record.isSome_get?_iff, h_fields]
  rfl

/-- The assemblies of a mistaken version have no place of a hash, while those of the detected
version do, which makes them four bytes longer. -/
theorem assemblyDefinition_of_isMistaken {pair : VersionPair}
    (h : pair.metadata.isSupported = true) (h_mistaken : pair.metadata.isMistaken = true) :
    (RecordKind.assemblyDefinition.blobLayout pair).size = 64 ∧
      Field.hashValueIndex ∉ ((Layout.of .assemblyDefinition).present pair).map (·.field) ∧
      (RecordKind.assemblyDefinition.blobLayout (.uniform pair.metadata.detected)).size = 68 ∧
      Field.hashValueIndex ∈ ((Layout.of .assemblyDefinition).present
        (.uniform pair.metadata.detected)).map (·.field) := by
  have h_all : ∀ version ∈ Version.supported, version.isMistaken = true →
      (RecordKind.assemblyDefinition.blobLayout (.uniform version)).size = 64 ∧
        Field.hashValueIndex ∉
          ((Layout.of .assemblyDefinition).present (.uniform version)).map (·.field) ∧
        (RecordKind.assemblyDefinition.blobLayout (.uniform version.detected)).size = 68 ∧
        Field.hashValueIndex ∈
          ((Layout.of .assemblyDefinition).present (.uniform version.detected)).map (·.field) := by
    decide
  have h_present : (Layout.of .assemblyDefinition).present pair =
      (Layout.of .assemblyDefinition).present (.uniform pair.metadata) :=
    RecordKind.present_congr rfl
  rw [h_present, size_blobLayout_congr h_present.symm]
  exact h_all pair.metadata (List.contains_iff_mem.mp h) h_mistaken

/-- **Assemblies.** The rows of the two versions agree exactly if they have the same fields, or if
there is no room for a row. -/
theorem rowsOf_assemblyDefinition_eq_iff {pair : VersionPair}
    (h : pair.metadata.isSupported = true) (h_short : pair.metadata.hasLongHeader = false)
    (bytes : List UInt8) :
    rowsOf AssemblyDefinition (.uniform pair.metadata.detected) bytes =
        rowsOf AssemblyDefinition pair bytes ↔
      (pair.metadata.isMistaken = true → bytes.length < 64) := by
  cases h_mistaken : pair.metadata.isMistaken with
  | false =>
    refine iff_of_true (rowsOf_congr ?_ bytes) (fun h_eq => by cases h_eq)
    refine (present_detected_iff h h_short rfl).mpr fun h_both => ?_
    rw [h_mistaken] at h_both
    cases h_both.2
  | true =>
    obtain ⟨h_size, h_without, h_size', h_with⟩ := assemblyDefinition_of_isMistaken h h_mistaken
    have h_nil : rowsOf AssemblyDefinition pair bytes = [] ↔ bytes.length < 64 :=
      h_size ▸ rowsOf_eq_nil_iff
    have h_nil' : rowsOf AssemblyDefinition (.uniform pair.metadata.detected) bytes = [] ↔
        bytes.length < 68 := h_size' ▸ rowsOf_eq_nil_iff
    constructor
    · intro h_eq _
      refine h_nil.mp (List.eq_nil_iff_forall_not_mem.mpr fun row h_row => h_without ?_)
      -- a row of both versions would have the place of its hash in one of them only
      exact (isSome_hashValueIndex_iff h_row).mp
        ((isSome_hashValueIndex_iff (h_eq ▸ h_row)).mpr h_with)
    · intro h_room
      rw [h_nil.mpr (h_room rfl), h_nil'.mpr (Nat.lt_trans (h_room rfl) (by decide))]

/-- **Every other table** is read the same. -/
theorem Metadata.ofSections_detected {pair : VersionPair} (h : pair.metadata.isSupported = true)
    (h_short : pair.metadata.hasLongHeader = false) (header header' : Header)
    (bytes : SectionId → List UInt8) (registration registration' : Registration) :
    ofSections (.uniform pair.metadata.detected) header' bytes registration' =
      { ofSections pair header bytes registration with
        pair := .uniform pair.metadata.detected
        header := header'
        registration := registration'
        assemblies := (rowsOf AssemblyDefinition (.uniform pair.metadata.detected)
          (bytes .assemblies)).toArray } := by
  have h_rows (α : Type) [Row α] [LawfulRow α] (h_kind : Row.kind α ≠ .assemblyDefinition)
      (bytes : List UInt8) :
      rowsOf α (.uniform pair.metadata.detected) bytes = rowsOf α pair bytes :=
    rowsOf_congr ((present_detected_iff h h_short LawfulRow.axis_eq).mpr fun h_both =>
      h_kind h_both.1) bytes
  unfold ofSections
  dsimp only
  rw [h_rows StringLiteral (by decide), h_rows ImageDefinition (by decide),
    h_rows TypeDefinition (by decide), h_rows MethodDefinition (by decide),
    h_rows ParameterDefinition (by decide), h_rows FieldDefinition (by decide),
    h_rows PropertyDefinition (by decide), h_rows EventDefinition (by decide),
    h_rows GenericContainer (by decide), h_rows GenericParameter (by decide),
    h_rows FieldDefaultValue (by decide), h_rows ParameterDefaultValue (by decide),
    h_rows FieldMarshaledSize (by decide), h_rows CustomAttributeTypeRange (by decide),
    h_rows CustomAttributeDataRange (by decide), h_rows FieldRef (by decide)]

/-- **Decoding what was detected.** A blob that was written for a version is read as one for the
detected version. All tables are those of the version itself, with one exception: the assemblies of
24.4 and of 24.5 are wrong as soon as there is one, because they are the only structures of the blob
that differ between a version and the one that is reported for it. -/
theorem Metadata.load_detected {pair : VersionPair} {header : Header} {data : ByteArray}
    {source : RegistrationSource} {config : Config} {registration registration' : Registration}
    (h : WrittenFor pair header data) (h_pair : pair.isSupported = true)
    (h_short : pair.metadata.hasLongHeader = false) (h_metadata : config.metadataVersion = none)
    (h_registration : config.registrationVersion = none)
    (h_read : Registration.read source (.uniform pair.metadata.detected) = .ok registration)
    (h_read' : Registration.read source pair = .ok registration') :
    (∀ kind : RecordKind, kind.axis = .metadata →
      ((Layout.of kind).present pair =
          (Layout.of kind).present (.uniform pair.metadata.detected) ↔
        ¬ (kind = .assemblyDefinition ∧ pair.metadata.isMistaken = true))) ∧
    ∃ loaded decoded, load data source config = .ok loaded ∧ decode data source pair = .ok decoded ∧
      loaded =
        { decoded with
          pair := .uniform pair.metadata.detected
          header := loaded.header
          registration := registration
          assemblies := loaded.assemblies } ∧
      loaded.header =
        { decoded.header with
          record := { decoded.header.record with version := pair.metadata.detected } } ∧
      (loaded.assemblies = decoded.assemblies ↔
        (pair.metadata.isMistaken = true → (header.bytesOf data .assemblies).length < 64)) := by
  obtain ⟨h_supported, -⟩ := Bool.and_eq_true_iff.mp h_pair
  have h_detected := Version.isSupported_detected h_supported
  have h_uniform : (VersionPair.uniform pair.metadata.detected).isSupported = true :=
    Bool.and_eq_true_iff.mpr ⟨h_detected, h_detected⟩
  have h_header : (Layout.of .metadataHeader).present pair =
      (Layout.of .metadataHeader).present (.uniform pair.metadata.detected) :=
    (present_detected_iff h_supported h_short rfl).mpr fun h_both => by cases h_both.1
  let header' : Header :=
    { header with record := { header.record with version := pair.metadata.detected } }
  have h_read_header : Header.read data (.uniform pair.metadata.detected) = .ok header' :=
    Header.read_congr h_pair h_uniform h_header h.read
  have h_load : load data source config = decode data source (.uniform pair.metadata.detected) := by
    rw [load, detect_eq h h_pair h_short h_metadata h_registration]
    rfl
  refine ⟨fun kind h_axis => present_detected_iff h_supported h_short h_axis,
    ofSections (.uniform pair.metadata.detected) header' (header.bytesOf data) registration,
    ofSections pair header (header.bytesOf data) registration', ?_,
    decode_eq_ok h_pair h.read h.inside h_read', ?_, rfl, ?_⟩
  · -- the version of the header does not show in the places of the sections
    rw [h_load]
    exact decode_eq_ok h_uniform h_read_header h.inside h_read
  · exact ofSections_detected h_supported h_short header header' (header.bytesOf data) registration'
      registration
  · rw [← rowsOf_assemblyDefinition_eq_iff h_supported h_short]
    exact ⟨List.toArray_inj, congrArg List.toArray⟩

/-! ### Blobs that were written -/

namespace Draft

variable {draft : Draft}

theorem has_stringLiterals (draft : Draft) : draft.has .stringLiterals = true := by
  have h_offset : draft.layout.fields.any (·.field = .stringLiteralOffset) = true := rfl
  have h_size : draft.layout.fields.any (·.field = .stringLiteralSize) = true := rfl
  exact Bool.and_eq_true_iff.mpr ⟨h_offset, h_size⟩

/-- The string literals come first. -/
theorem start_stringLiterals (draft : Draft) : draft.start .stringLiterals = draft.layout.size := by
  rw [start, sections, SectionId.all, List.filter_cons_of_pos draft.has_stringLiterals,
    Bytes.startOf, if_pos rfl, Nat.add_zero]

/-- The blob of a draft is one that was written for its version. -/
theorem writtenFor_blob (h : draft.Fits) : WrittenFor draft.pair draft.header draft.blob where
  read := read_blob h
  version := rfl
  literals := by
    have h_word : draft.word .stringLiteralOffset = draft.layout.size :=
      (word_offsetField draft.has_stringLiterals).trans draft.start_stringLiterals
    have h_field : draft.layout.fields.any (·.field = .stringLiteralOffset) = true := rfl
    show (draft.layout.record draft.word).get? .stringLiteralOffset = some draft.layout.size
    rw [ResolvedLayout.get?_record, if_pos h_field, h_word]
  inside _ _ := inside_blob

/-- A blob of 24.4 with one assembly. -/
def assembly : Draft where
  pair := .uniform ⟨24, 4⟩
  contents
    | .assemblies => [fun _ => 1]
    | id => id.shape.empty
  others _ := 0

theorem fits_assembly : assembly.Fits where
  supported := by decide
  contents id _ := by
    cases id with
    | assemblies =>
      show ∀ row ∈ [fun _ => 1], ∀ spec ∈ (RecordKind.assemblyDefinition.blobLayout
        assembly.pair).fields, row spec.field < 256 ^ spec.width.bytes .bits32
      decide
    | _ => exact Shape.fits_empty _ _
  others _ := Nat.two_pow_pos 32
  length := by decide +kernel

end Draft

/-- The assembly of `Draft.assembly` is lost: as a row of 24.2 it is not long enough. -/
theorem Metadata.load_detected_assembly : ∃ loaded decoded,
    load Draft.assembly.blob .zeros .standard = .ok loaded ∧
      decode Draft.assembly.blob .zeros (.uniform ⟨24, 4⟩) = .ok decoded ∧
      loaded.typeDefinitions = decoded.typeDefinitions ∧
      loaded.assemblies ≠ decoded.assemblies := by
  have h_reads : (Registration.read .zeros (.uniform ⟨24, 2⟩)).toOption.isSome = true ∧
      (Registration.read .zeros (.uniform ⟨24, 4⟩)).toOption.isSome = true := by
    decide +kernel
  cases h_read : Registration.read .zeros (.uniform ⟨24, 2⟩) with
  | error e =>
    rw [h_read] at h_reads
    cases h_reads.1
  | ok registration =>
    cases h_read' : Registration.read .zeros (.uniform ⟨24, 4⟩) with
    | error e =>
      rw [h_read'] at h_reads
      cases h_reads.2
    | ok registration' =>
      have h_metadata : Config.standard.metadataVersion = none := rfl
      have h_registration : Config.standard.registrationVersion = none := rfl
      obtain ⟨-, loaded, decoded, h_load, h_decode, h_same, -, h_iff⟩ :=
        load_detected (Draft.writtenFor_blob Draft.fits_assembly) (by decide) (by decide)
          h_metadata h_registration h_read h_read'
      refine ⟨loaded, decoded, h_load, h_decode, ?_, fun h_assemblies => ?_⟩
      · rw [h_same]
      · have h_length := h_iff.mp h_assemblies rfl
        rw [Draft.bytesOf_blob] at h_length
        exact absurd h_length (by decide +kernel)

end GlobalMetadata
