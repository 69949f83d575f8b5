import GlobalMetadata.Proofs.Conversion
import GlobalMetadata.Proofs.Fallible

/-!
# What decoding comes to

Decoding locates one section after the other and reads each of them in one of three ways: as rows,
as indices, or as it is. Here it is taken apart into what can fail and what is read.

* What a section is read as depends on the bytes of the section alone: `rowsOf` for rows and
  `indicesOf` for indices. `Metadata.ofSections` puts together all tables of a blob whose sections
  hold given bytes.
* Once a section is located, reading it cannot fail, because rows always convert
  (`Header.locate_bind_readTable` and its relatives).

So the sections are located in a fixed order, `SectionId.readingOrder`, after that the registration
tables are read, and the result is what the sections hold (`Metadata.decode_eq`,
`Metadata.decode_eq_ok_iff`).
-/

namespace GlobalMetadata

/-! ### Pieces of bytes -/

namespace Bytes

variable {size count : Nat} {bytes : List UInt8}

/-- The pieces of bytes that are long enough for all of them are complete. -/
theorem length_of_mem_chunks (h : count * size ≤ bytes.length) {piece : List UInt8}
    (h_piece : piece ∈ chunks size count bytes) : piece.length = size := by
  induction count generalizing bytes with
  | zero => exact absurd h_piece List.not_mem_nil
  | succ count ih =>
    rw [Nat.succ_mul] at h
    rcases List.mem_cons.mp h_piece with rfl | h_piece
    · rw [List.length_take]
      omega
    · refine ih ?_ h_piece
      rw [List.length_drop]
      omega

/-- The pieces start at the multiples of their size. -/
theorem chunks_eq_map (size count : Nat) (bytes : List UInt8) :
    chunks size count bytes =
      (List.range count).map fun k => (bytes.drop (k * size)).take size := by
  induction count generalizing bytes with
  | zero => rfl
  | succ count ih =>
    have h_next (k : Nat) : (bytes.drop size).drop (k * size) = bytes.drop ((k + 1) * size) := by
      rw [List.drop_drop, Nat.succ_mul, Nat.add_comm]
    rw [chunks, ih, List.range_succ_eq_map, List.map_cons, List.map_map, Nat.zero_mul]
    simp only [h_next]
    rfl

/-- Pieces are cut off the front, whatever comes behind the last one. -/
theorem chunks_take (size count : Nat) (bytes : List UInt8) :
    chunks size count (bytes.take (count * size)) = chunks size count bytes := by
  induction count generalizing bytes with
  | zero => rfl
  | succ count ih =>
    rw [chunks, chunks, List.take_take, List.drop_take, Nat.succ_mul, Nat.add_sub_cancel, ih,
      Nat.min_eq_left (Nat.le_add_left _ _)]

theorem slice?_eq_some {data : ByteArray} {offset length : Nat} (h : offset + length ≤ data.size) :
    slice? data offset length = some ((data.data.toList.drop offset).take length) := by
  rw [slice?, part?, if_pos h, Option.map_some, ByteArray.data_extract, Array.toList_extract,
    List.extract_eq_take_drop, Nat.add_sub_cancel_left]

theorem le_size_of_slice? {data : ByteArray} {offset length : Nat} {bytes : List UInt8}
    (h : slice? data offset length = some bytes) : offset + length ≤ data.size := by
  rw [slice?, part?] at h
  split at h
  next h_inside => exact h_inside
  next => cases h

end Bytes

namespace Section

/-- The bytes at a place of the data. -/
def bytesIn (place : Section) (data : ByteArray) : List UInt8 :=
  (data.data.toList.drop place.offset).take place.size

theorem length_bytesIn {place : Section} {data : ByteArray}
    (h : place.offset + place.size ≤ data.size) : (place.bytesIn data).length = place.size := by
  have h_size : data.data.toList.length = data.size := Array.length_toList
  rw [bytesIn, List.length_take, List.length_drop, h_size]
  omega

theorem slice?_eq_bytesIn {place : Section} {data : ByteArray}
    (h : place.offset + place.size ≤ data.size) :
    Bytes.slice? data place.offset place.size = some (place.bytesIn data) :=
  Bytes.slice?_eq_some h

end Section

/-! ### Layouts -/

theorem VersionPair.ensureSupported_eq_ok_iff {pair : VersionPair} :
    pair.ensureSupported = .ok () ↔ pair.isSupported = true := by
  unfold ensureSupported
  split
  next h => exact iff_of_true rfl h
  next h => exact iff_of_false (fun h_ok => by cases h_ok) h

namespace RecordKind

/-- **Axes.** A structure looks at its own axis only: where two pairs of versions agree on it, the
structure has the same fields for both. -/
theorem present_congr {kind : RecordKind} {pair pair' : VersionPair}
    (h : pair.on kind.axis = pair'.on kind.axis) :
    (Layout.of kind).present pair = (Layout.of kind).present pair' := by
  -- no window names an axis of its own
  have h_windows : kind.fields.all (fun spec => spec.windows.all (·.axis = none)) = true := by
    cases kind <;> rfl
  refine List.filter_congr fun spec h_spec => ?_
  have h_holds (window : Window) (h_window : window ∈ spec.windows) :
      window.holds pair kind.axis = window.holds pair' kind.axis := by
    have h_none : window.axis = none :=
      of_decide_eq_true (List.all_eq_true.mp (List.all_eq_true.mp h_windows spec h_spec) window
        h_window)
    rw [Window.holds, Window.holds, h_none]
    exact congrArg window.contains h
  have h_any : spec.windows.any (·.holds pair kind.axis) =
      spec.windows.any (·.holds pair' kind.axis) := by
    rw [Bool.eq_iff_iff, List.any_eq_true, List.any_eq_true]
    exact exists_congr fun window => and_congr_right fun h_window => by
      rw [h_holds window h_window]
  exact congrArg (spec.windows.isEmpty || ·) h_any

/-- A layout can be resolved for supported versions. -/
theorem resolve_eq_ok_iff {kind : RecordKind} {pair : VersionPair} {width : PointerWidth}
    {layout : ResolvedLayout} : kind.resolve pair width = .ok layout ↔
      pair.isSupported = true ∧
        layout = ⟨kind, pair.on kind.axis, width, (Layout.of kind).present pair⟩ := by
  unfold resolve Layout.resolve
  rw [except_bind_eq_ok_iff]
  constructor
  · rintro ⟨_, h_supported, h_layout⟩
    cases h_layout
    exact ⟨VersionPair.ensureSupported_eq_ok_iff.mp h_supported, rfl⟩
  · rintro ⟨h_supported, rfl⟩
    exact ⟨(), VersionPair.ensureSupported_eq_ok_iff.mpr h_supported, rfl⟩

/-- The layout of a kind of structure of the blob. -/
def blobLayout (kind : RecordKind) (pair : VersionPair) : ResolvedLayout :=
  ⟨kind, pair.on kind.axis, .bits32, (Layout.of kind).present pair⟩

theorem resolve_eq_blobLayout (kind : RecordKind) {pair : VersionPair}
    (h : pair.isSupported = true) : kind.resolve pair .bits32 = .ok (kind.blobLayout pair) :=
  resolve_eq_ok_iff.mpr ⟨h, rfl⟩

end RecordKind

namespace ResolvedLayout

theorem fields_entriesOf (p : PointerWidth) (endian : Endian) (specs : List FieldSpec)
    (bytes : List UInt8) :
    (entriesOf p endian specs bytes).map (·.1) = specs.map (·.field) := by
  induction specs generalizing bytes with
  | nil => rfl
  | cons spec specs ih => rw [entriesOf, List.map_cons, List.map_cons, ih]

theorem width_pos (p : PointerWidth) (width : FieldWidth) : 0 < width.bytes p := by
  cases width with
  | native => cases p <;> decide
  | _ => exact Nat.succ_pos _

theorem totalWidth_pos (p : PointerWidth) {specs : List FieldSpec} (h : specs ≠ []) :
    0 < totalWidth p specs := by
  cases specs with
  | nil => exact absurd rfl h
  | cons spec specs => exact Nat.add_pos_left (width_pos p spec.width) _

end ResolvedLayout

theorem ResolvedLayout.readAt_eq_ok_iff {layout : ResolvedLayout} {data : ByteArray}
    {endian : Endian} {offset : Nat} {record : Record} :
    layout.readAt data endian offset = .ok record ↔
      ∃ bytes, Bytes.slice? data offset layout.size = some bytes ∧
        layout.read endian bytes = .ok record := by
  unfold readAt
  cases Bytes.slice? data offset layout.size with
  | none =>
    refine iff_of_false (fun h => by cases h) ?_
    rintro ⟨bytes, h_bytes, -⟩
    cases h_bytes
  | some bytes =>
    constructor
    · intro h
      exact ⟨bytes, rfl, h⟩
    · rintro ⟨bytes', h_bytes, h⟩
      cases h_bytes
      exact h

/-- **The header** is the structure at the start of the blob, next to the integer version. -/
theorem Header.read_eq_ok_iff {data : ByteArray} {pair : VersionPair} {header : Header}
    (h : pair.isSupported = true) :
    Header.read data pair = .ok header ↔
      integerVersion data = .ok header.version ∧
        (RecordKind.metadataHeader.blobLayout pair).readAt data .little 0 = .ok header.record := by
  unfold Header.read readBlobRecord
  rw [RecordKind.resolve_eq_blobLayout .metadataHeader h]
  -- which fields there are does not matter
  generalize RecordKind.metadataHeader.blobLayout pair = layout
  obtain ⟨record, version⟩ := header
  cases integerVersion data with
  | error e => exact iff_of_false (fun h_ok => by cases h_ok) (fun h_ok => by cases h_ok.1)
  | ok found =>
    simp only [bind, Except.bind]
    cases layout.readAt data .little 0 with
    | error e => exact iff_of_false (fun h_ok => by cases h_ok) (fun h_ok => by cases h_ok.2)
    | ok stored =>
      simp only [pure, Except.pure, Except.ok.injEq, Header.mk.injEq]
      exact and_comm

/-! ### Rows, indices and bytes of a section -/

section Contents

variable (α : Type) [Row α] (pair : VersionPair) (bytes : List UInt8)

/-- The rows that stand one after the other in some bytes. -/
def rowsOf : List α :=
  let layout := (Row.kind α).blobLayout pair
  (Bytes.chunks layout.size (bytes.length / layout.size) bytes).filterMap fun piece =>
    (layout.read .little piece >>= Row.ofRecord).toOption

/-- The indices that stand one after the other in some bytes. -/
def indicesOf : List Int :=
  (Bytes.chunks 4 (bytes.length / 4) bytes).map fun word => asInt32 (Endian.little.decode word)

end Contents

section Rows

variable {α : Type} [Row α] [LawfulRow α]

/-- No structure of a table is empty. -/
theorem size_blobLayout_pos (α : Type) [Row α] [LawfulRow α] (pair : VersionPair) :
    0 < ((Row.kind α).blobLayout pair).size := by
  refine ResolvedLayout.totalWidth_pos _ fun h_nil => ?_
  -- a permanent field is there
  obtain ⟨field, h_field⟩ := List.exists_mem_of_ne_nil _ (LawfulRow.permanent_ne_nil (α := α))
  have h_present := RecordKind.mem_present_of_permanent h_field pair
  rw [show (Layout.of (Row.kind α)).present pair = [] from h_nil] at h_present
  exact absurd h_present List.not_mem_nil

/-- **Rows convert.** Enough bytes make a row, whatever they are, and the version that the record
carries does not show in it. -/
theorem exists_row {piece : List UInt8} (pair : VersionPair)
    (h : ((Row.kind α).blobLayout pair).size ≤ piece.length) (version : Version) :
    ∃ record row, ((Row.kind α).blobLayout pair).read .little piece = .ok record ∧
      (Row.ofRecord record : Except Error α) = .ok row ∧
      (Row.ofRecord { record with version := version } : Except Error α) = .ok row := by
  let layout := (Row.kind α).blobLayout pair
  let record : Record :=
    ⟨layout.kind, layout.version,
      ResolvedLayout.entriesOf layout.pointerWidth .little layout.fields piece⟩
  have h_read : layout.read .little piece = .ok record := by
    rw [ResolvedLayout.read, if_neg (Nat.not_lt.mpr h)]
  have h_has : record.Has (Row.kind α).permanent := by
    refine Record.has_of_forall_mem fun field h_field => ?_
    rw [Record.fields, ResolvedLayout.fields_entriesOf]
    exact RecordKind.mem_present_of_permanent h_field pair
  obtain ⟨row, h_row, h_row'⟩ := LawfulRow.converts record h_has version
  exact ⟨record, row, h_read, h_row, h_row'⟩

/-- There is no row exactly if there is no room for one. -/
theorem rowsOf_eq_nil_iff {pair : VersionPair} {bytes : List UInt8} :
    rowsOf α pair bytes = [] ↔ bytes.length < ((Row.kind α).blobLayout pair).size := by
  let layout := (Row.kind α).blobLayout pair
  constructor
  · refine fun h_nil => Nat.not_le.mp fun h_long => ?_
    -- the first piece makes a row
    obtain ⟨count, h_count⟩ : ∃ count, bytes.length / layout.size = count + 1 :=
      Nat.exists_eq_succ_of_ne_zero (Nat.ne_of_gt (Nat.div_pos h_long (size_blobLayout_pos α pair)))
    have h_first : bytes.take layout.size ∈ Bytes.chunks layout.size (count + 1) bytes :=
      List.mem_cons_self
    have h_length : layout.size ≤ (bytes.take layout.size).length := by
      rw [List.length_take]
      exact Nat.le_min.mpr ⟨Nat.le_refl _, h_long⟩
    obtain ⟨record, row, h_record, h_row, -⟩ := exists_row (α := α) pair h_length default
    have h_none := List.filterMap_eq_nil_iff.mp h_nil _ (h_count ▸ h_first)
    rw [h_record] at h_none
    cases (congrArg Except.toOption h_row).symm.trans h_none
  · intro h_short
    rw [rowsOf, Nat.div_eq_of_lt h_short]
    rfl

omit [LawfulRow α] in
/-- Every row comes from a record with the fields of the version. -/
theorem exists_record_of_mem_rowsOf {pair : VersionPair} {bytes : List UInt8} {row : α}
    (h : row ∈ rowsOf α pair bytes) : ∃ record : Record,
      record.fields = ((Layout.of (Row.kind α)).present pair).map (·.field) ∧
        (Row.ofRecord record : Except Error α) = .ok row := by
  obtain ⟨piece, -, h_some⟩ := List.mem_filterMap.mp h
  unfold ResolvedLayout.read at h_some
  split at h_some
  next => cases h_some
  next =>
    let layout := (Row.kind α).blobLayout pair
    let record : Record := ⟨layout.kind, layout.version,
      ResolvedLayout.entriesOf layout.pointerWidth .little layout.fields piece⟩
    refine ⟨record, ResolvedLayout.fields_entriesOf .bits32 .little layout.fields piece, ?_⟩
    cases h_row : (Row.ofRecord record : Except Error α) with
    | error e => cases (congrArg Except.toOption h_row).symm.trans h_some
    | ok row' => rw [Option.some.inj ((congrArg Except.toOption h_row).symm.trans h_some)]

/-- **Reading a table** that lies inside the data gives the rows of its bytes. -/
theorem readTable_eq {data : ByteArray} {pair : VersionPair} (h : pair.isSupported = true)
    (id : SectionId) {place : Section} (h_inside : place.offset + place.size ≤ data.size) :
    readTable α data id (some place) pair = .ok (rowsOf α pair (place.bytesIn data)) := by
  let layout := (Row.kind α).blobLayout pair
  let count := place.size / layout.size
  have h_ne : layout.size ≠ 0 := Nat.ne_of_gt (size_blobLayout_pos α pair)
  have h_length := Section.length_bytesIn h_inside
  have h_count : count * layout.size ≤ place.size := Nat.div_mul_le_self _ _
  -- as many bytes as the rows need are read, and those behind them do not matter
  have h_slice : Bytes.slice? data place.offset (count * layout.size) =
      some ((place.bytesIn data).take (count * layout.size)) := by
    rw [Bytes.slice?_eq_some (by omega), Section.bytesIn, List.take_take, Nat.min_eq_left h_count]
  have h_each : ∀ piece ∈ Bytes.chunks layout.size count (place.bytesIn data), ∃ record row,
      layout.read .little piece = .ok record ∧
        (Row.ofRecord record : Except Error α) = .ok row := by
    intro piece h_piece
    have h_size := Bytes.length_of_mem_chunks (h_length ▸ h_count) h_piece
    obtain ⟨record, row, h_record, h_row, -⟩ :=
      exists_row (α := α) pair (Nat.le_of_eq h_size.symm) layout.version
    exact ⟨record, row, h_record, h_row⟩
  obtain ⟨records, h_records, h_rows⟩ := exists_mapM_mapM_eq_ok h_each
  have h_array : layout.readArray data .little place.offset count = .ok records := by
    rw [ResolvedLayout.readArray, h_slice]
    show (if layout.size = 0 then _ else _) = _
    rw [if_neg h_ne, Bytes.chunks_take, h_records]
  unfold readTable
  rw [(Row.kind α).resolve_eq_blobLayout h]
  show (if layout.size = 0 then _ else _) = _
  rw [if_neg h_ne, h_array]
  show records.mapM Row.ofRecord = .ok (rowsOf α pair (place.bytesIn data))
  rw [h_rows, rowsOf, h_length]

end Rows

/-- **Reading indices** that lie inside the data. -/
theorem readIndices_eq {data : ByteArray} (id : SectionId) {place : Section}
    (h_inside : place.offset + place.size ≤ data.size) :
    readIndices data id (some place) = .ok (indicesOf (place.bytesIn data)) := by
  unfold readIndices
  dsimp only
  rw [Section.slice?_eq_bytesIn h_inside, indicesOf, Section.length_bytesIn h_inside]
  rfl

/-! ### One section -/

namespace Header

variable (header : Header) (data : ByteArray) (id : SectionId)

/-- The bytes of a section, none for a section that the version does not have. -/
def bytesOf : List UInt8 :=
  (header.declared? id).elim [] (·.bytesIn data)

/-- Succeeds exactly if a section, when there is one, lies inside the blob. -/
def check (length : Nat) : Except Error Unit := do
  let _ ← header.locate id length

variable {header data id}

/-- A section that is located can be read, and nothing is read for one that the version does not
have. So whatever is done next is done with what the bytes of the section stand for. -/
theorem locate_bind_eq {β γ : Type} (read : Option Section → Except Error β)
    (contents : List UInt8 → β) (h_none : read none = .ok (contents []))
    (h_some : ∀ place : Section, place.offset + place.size ≤ data.size →
      read (some place) = .ok (contents (place.bytesIn data))) (next : β → Except Error γ) :
    (header.locate id data.size >>= fun place => read place >>= next) =
      (header.check id data.size >>= fun _ => next (contents (header.bytesOf data id))) := by
  unfold check locate bytesOf
  cases header.declared? id with
  | none =>
    show read none >>= next = _
    rw [h_none]
    rfl
  | some place =>
    dsimp only
    split
    next h_inside =>
      show read (some place) >>= next = _
      rw [h_some place h_inside]
      rfl
    next => rfl

theorem locate_bind_readTable {α γ : Type} [Row α] [LawfulRow α] {pair : VersionPair}
    (h : pair.isSupported = true) (next : List α → Except Error γ) :
    (header.locate id data.size >>= fun place => readTable α data id place pair >>= next) =
      (header.check id data.size >>= fun _ => next (rowsOf α pair (header.bytesOf data id))) := by
  refine locate_bind_eq _ (rowsOf α pair) ?_ (fun _ => readTable_eq h id) next
  -- there is no row in no bytes
  rw [rowsOf, List.length_nil, Nat.zero_div]
  rfl

theorem locate_bind_readIndices {γ : Type} (next : List Int → Except Error γ) :
    (header.locate id data.size >>= fun place => readIndices data id place >>= next) =
      (header.check id data.size >>= fun _ => next (indicesOf (header.bytesOf data id))) :=
  locate_bind_eq _ indicesOf rfl (fun _ => readIndices_eq id) next

theorem sectionBytes_eq :
    Metadata.sectionBytes data header id =
      (header.check id data.size >>= fun _ => pure ⟨(header.bytesOf data id).toArray⟩) := by
  let read : Option Section → Except Error ByteArray := fun place =>
    pure (place.elim ByteArray.empty fun p => data.extract p.offset (p.offset + p.size))
  refine Eq.trans ?_
    (locate_bind_eq read (fun bytes => ⟨bytes.toArray⟩) rfl (fun place h_inside => ?_) pure)
  · unfold Metadata.sectionBytes
    congr 1
    funext place
    cases place <;> rfl
  · have h_part := Section.slice?_eq_bytesIn h_inside
    rw [Bytes.slice?, Bytes.part?, if_pos h_inside] at h_part
    rw [← Option.some.inj h_part]
    rfl

end Header

/-! ### All sections -/

namespace Header

variable {header : Header} {id : SectionId} {length : Nat}

theorem check_eq_ok (h : ∀ place, header.declared? id = some place →
    place.offset + place.size ≤ length) : header.check id length = .ok () := by
  unfold check locate
  cases h_place : header.declared? id with
  | none => rfl
  | some place =>
    dsimp only
    rw [if_pos (h place h_place)]
    rfl

theorem forM_check_eq_ok (h : ∀ id place, header.declared? id = some place →
    place.offset + place.size ≤ length) (ids : List SectionId) :
    (forM ids fun id => header.check id length) = .ok () := by
  induction ids with
  | nil => rfl
  | cons id ids ih =>
    rw [List.forM_cons, check_eq_ok (h id)]
    exact ih

end Header

/-- The sections in the order in which they are located. Where interfaces start in the dispatch
tables is not among them. -/
def SectionId.readingOrder : List SectionId :=
  [.stringLiterals, .stringLiteralData, .strings, .images, .assemblies, .typeDefinitions, .methods,
    .parameters, .fields, .properties, .events, .genericContainers, .genericParameters,
    .genericParameterConstraints, .nestedTypes, .interfaces, .vtableMethods, .fieldDefaultValues,
    .parameterDefaultValues, .fieldAndParameterDefaultValueData, .fieldMarshaledSizes,
    .attributeTypeRanges, .attributeTypes, .attributeDataRanges, .attributeData, .fieldRefs,
    .referencedAssemblies, .exportedTypeDefinitions]

namespace Metadata

/-- The tables of a blob whose sections hold given bytes. -/
def ofSections (pair : VersionPair) (header : Header) (bytes : SectionId → List UInt8)
    (registration : Registration) : Metadata :=
  let table (α : Type) [Row α] (id : SectionId) : Array α := (rowsOf α pair (bytes id)).toArray
  let indices (id : SectionId) : Array Int := (indicesOf (bytes id)).toArray
  let raw (id : SectionId) : ByteArray := ⟨(bytes id).toArray⟩
  { pair := pair
    header := header
    literals := ⟨table StringLiteral .stringLiterals, raw .stringLiteralData⟩
    strings := ⟨raw .strings⟩
    images := table ImageDefinition .images
    assemblies := table AssemblyDefinition .assemblies
    typeDefinitions := table TypeDefinition .typeDefinitions
    methods := table MethodDefinition .methods
    parameters := table ParameterDefinition .parameters
    fields := table FieldDefinition .fields
    properties := table PropertyDefinition .properties
    events := table EventDefinition .events
    genericContainers := table GenericContainer .genericContainers
    genericParameters := table GenericParameter .genericParameters
    genericParameterConstraints := indices .genericParameterConstraints
    nestedTypes := indices .nestedTypes
    interfaces := indices .interfaces
    vtableMethods := indices .vtableMethods
    fieldDefaultValues := table FieldDefaultValue .fieldDefaultValues
    parameterDefaultValues := table ParameterDefaultValue .parameterDefaultValues
    defaultValueData := raw .fieldAndParameterDefaultValueData
    fieldMarshaledSizes := table FieldMarshaledSize .fieldMarshaledSizes
    attributeTypeRanges := table CustomAttributeTypeRange .attributeTypeRanges
    attributeTypes := indices .attributeTypes
    attributeDataRanges := table CustomAttributeDataRange .attributeDataRanges
    attributeData := raw .attributeData
    fieldRefs := table FieldRef .fieldRefs
    referencedAssemblies := indices .referencedAssemblies
    exportedTypeDefinitions := indices .exportedTypeDefinitions
    registration := registration }

/-- **Decoding, taken apart.** With a readable header, the sections are located in their order, then
the registration tables are read, and nothing else can fail. -/
theorem decode_eq {data : ByteArray} {source : RegistrationSource} {pair : VersionPair}
    {header : Header} (h : pair.isSupported = true)
    (h_header : Header.read data pair = .ok header) :
    decode data source pair = do
      forM SectionId.readingOrder fun id => header.check id data.size
      let registration ← Registration.read source pair
      return ofSections pair header (header.bytesOf data) registration := by
  unfold decode
  rw [VersionPair.ensureSupported_eq_ok_iff.mpr h, h_header]
  -- every section becomes a check, and what it is read as goes into the result
  simp only [Header.locate_bind_readTable h, Header.locate_bind_readIndices, Header.sectionBytes_eq,
    SectionId.readingOrder, List.forM_cons, List.forM_nil, bind_assoc, pure_bind]
  rfl

/-- **Successful decoding.** Whatever is decoded is put together from the header and the sections of
the blob. -/
theorem decode_eq_ok_iff {data : ByteArray} {source : RegistrationSource} {pair : VersionPair}
    {metadata : Metadata} : decode data source pair = .ok metadata ↔
      ∃ header registration, pair.isSupported = true ∧ Header.read data pair = .ok header ∧
        (forM SectionId.readingOrder fun id => header.check id data.size) = .ok () ∧
        Registration.read source pair = .ok registration ∧
        metadata = ofSections pair header (header.bytesOf data) registration := by
  constructor
  · intro h
    obtain ⟨_, h_supported, h_rest⟩ := except_bind_eq_ok_iff.mp h
    obtain ⟨header, h_header, -⟩ := except_bind_eq_ok_iff.mp h_rest
    have h_pair := VersionPair.ensureSupported_eq_ok_iff.mp h_supported
    rw [decode_eq h_pair h_header] at h
    obtain ⟨_, h_checks, h⟩ := except_bind_eq_ok_iff.mp h
    obtain ⟨registration, h_registration, h⟩ := except_bind_eq_ok_iff.mp h
    cases h
    exact ⟨header, registration, h_pair, h_header, h_checks, h_registration, rfl⟩
  · rintro ⟨header, registration, h_pair, h_header, h_checks, h_registration, rfl⟩
    rw [decode_eq h_pair h_header, h_checks, h_registration]
    rfl

/-- Decoding succeeds if all sections lie inside and the registration tables can be read. -/
theorem decode_eq_ok {data : ByteArray} {source : RegistrationSource} {pair : VersionPair}
    {header : Header} {registration : Registration} (h : pair.isSupported = true)
    (h_header : Header.read data pair = .ok header)
    (h_inside : ∀ id place, header.declared? id = some place →
      place.offset + place.size ≤ data.size)
    (h_registration : Registration.read source pair = .ok registration) :
    decode data source pair = .ok (ofSections pair header (header.bytesOf data) registration) :=
  decode_eq_ok_iff.mpr ⟨header, registration, h, h_header,
    Header.forM_check_eq_ok h_inside _, h_registration, rfl⟩

end Metadata

end GlobalMetadata
