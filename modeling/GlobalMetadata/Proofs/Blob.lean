import GlobalMetadata.Proofs.Encoding

/-!
# Writing a blob

A `Draft` says what is in every section of a blob: rows, indices or bytes, depending on the shape of
the section. It is written as the header of its version, followed by the sections that the version
has, in order, each padded to a multiple of four bytes. The header gives the place of every section.

Here the header that is read back and the bytes at the places that it gives are worked out, once for
all sections: `Draft.read_blob` and `Draft.bytesOf_blob`. What the bytes are read as is another
matter.
-/

namespace GlobalMetadata

/-! ### What is in a section -/

/-- What the bytes of a section stand for. -/
inductive Shape
  /-- Structures of one kind. -/
  | rows (kind : RecordKind)
  /-- Signed 32-bit numbers. -/
  | indices
  /-- Just bytes. -/
  | bytes

namespace Shape

/-- What a section of some shape can hold. A row is given by the values of its fields. -/
def Content : Shape → Type
  | rows _ => List (Field → Nat)
  | indices => List Int
  | bytes => List UInt8

/-- What a section without bytes holds. -/
def empty : (shape : Shape) → shape.Content
  | rows _ => ([] : List (Field → Nat))
  | indices => ([] : List Int)
  | bytes => ([] : List UInt8)

/-- The values are in the range of the fields that they are written to. -/
def Fits (pair : VersionPair) : (shape : Shape) → shape.Content → Prop
  | .rows kind, (table : List (Field → Nat)) => ∀ row ∈ table, (kind.blobLayout pair).Fits row
  | .indices, (table : List Int) => ∀ index ∈ table, -2 ^ 31 ≤ index ∧ index < 2 ^ 31
  | .bytes, _ => True

/-- The bytes of a section, without padding. -/
def encode (pair : VersionPair) : (shape : Shape) → shape.Content → List UInt8
  | .rows kind, (table : List (Field → Nat)) =>
    table.flatMap ((kind.blobLayout pair).encode .little)
  | .indices, (table : List Int) => table.flatMap fun index =>
      Endian.little.encode 4 (wordOf index)
  | .bytes, (content : List UInt8) => content

theorem encode_empty (pair : VersionPair) (shape : Shape) : shape.encode pair shape.empty = [] := by
  cases shape <;> rfl

theorem fits_empty (pair : VersionPair) (shape : Shape) : shape.Fits pair shape.empty := by
  cases shape with
  | rows kind =>
    intro row h_row
    exact absurd h_row List.not_mem_nil
  | indices =>
    intro index h_index
    exact absurd h_index List.not_mem_nil
  | bytes => trivial

end Shape

namespace SectionId

/-- The shape of each section. -/
def shape : SectionId → Shape
  | .stringLiterals => .rows .stringLiteral
  | .events => .rows .eventDefinition
  | .properties => .rows .propertyDefinition
  | .methods => .rows .methodDefinition
  | .parameterDefaultValues => .rows .parameterDefaultValue
  | .fieldDefaultValues => .rows .fieldDefaultValue
  | .fieldMarshaledSizes => .rows .fieldMarshaledSize
  | .parameters => .rows .parameterDefinition
  | .fields => .rows .fieldDefinition
  | .genericParameters => .rows .genericParameter
  | .genericContainers => .rows .genericContainer
  | .typeDefinitions => .rows .typeDefinition
  | .images => .rows .imageDefinition
  | .assemblies => .rows .assemblyDefinition
  | .fieldRefs => .rows .fieldRef
  | .attributeTypeRanges => .rows .customAttributeTypeRange
  | .attributeDataRanges => .rows .customAttributeDataRange
  | .genericParameterConstraints | .nestedTypes | .interfaces | .vtableMethods
    | .referencedAssemblies | .attributeTypes | .exportedTypeDefinitions => .indices
  | .stringLiteralData | .strings | .fieldAndParameterDefaultValueData | .interfaceOffsets
    | .attributeData => .bytes

theorem mem_all (id : SectionId) : id ∈ all := by
  cases id <;> decide

end SectionId

/-! ### Bytes one after the other -/

namespace Bytes

/-- Zeros up to the next multiple of four. -/
def padded (bytes : List UInt8) : List UInt8 :=
  bytes ++ List.replicate ((4 - bytes.length % 4) % 4) 0

/-- How many bytes come before those of `key`. -/
def startOf {κ : Type} [DecidableEq κ] (write : κ → List UInt8) (key : κ) : List κ → Nat
  | [] => 0
  | other :: keys =>
    if other = key then 0 else (padded (write other)).length + startOf write key keys

/-- The bytes of `key` stand where they start. -/
theorem flatMap_padded_eq {κ : Type} [DecidableEq κ] (write : κ → List UInt8) {key : κ}
    {keys : List κ} (h : key ∈ keys) : ∃ before after,
      (keys.flatMap fun other => padded (write other)) = before ++ write key ++ after ∧
        before.length = startOf write key keys := by
  induction keys with
  | nil => exact absurd h List.not_mem_nil
  | cons other keys ih =>
    rw [List.flatMap_cons, startOf]
    by_cases h_other : other = key
    · subst h_other
      rw [if_pos rfl, padded, List.append_assoc]
      exact ⟨[], _, rfl, rfl⟩
    · obtain ⟨before, after, h_eq, h_length⟩ := ih (List.mem_of_ne_of_mem (Ne.symm h_other) h)
      refine ⟨padded (write other) ++ before, after, ?_, ?_⟩
      · rw [h_eq, List.append_assoc, List.append_assoc, List.append_assoc]
      · rw [if_neg h_other, List.length_append, h_length]

end Bytes

/-! ### The writer -/

/-- What a blob is written from. -/
structure Draft where
  pair : VersionPair
  contents : (id : SectionId) → id.shape.Content
  /-- The values of the fields of the header that do not place a section. -/
  others : Field → Nat

namespace Draft

variable (draft : Draft)

/-- The layout of the header. -/
def layout : ResolvedLayout :=
  RecordKind.metadataHeader.blobLayout draft.pair

/-- Whether the header places a section. -/
def has (id : SectionId) : Bool :=
  draft.layout.fields.any (·.field = id.offsetField) &&
    draft.layout.fields.any (·.field = id.sizeField)

/-- The sections of the version, in order. -/
def sections : List SectionId :=
  SectionId.all.filter draft.has

/-- The bytes of a section, without padding. -/
def content (id : SectionId) : List UInt8 :=
  id.shape.encode draft.pair (draft.contents id)

/-- Where a section starts. -/
def start (id : SectionId) : Nat :=
  draft.layout.size + Bytes.startOf draft.content id draft.sections

/-- The values of the header. -/
def word (field : Field) : Nat :=
  if field = .sanity then Header.magic
  else if field = .version then draft.pair.metadata.major.toNat
  else if let some id := draft.sections.find? (·.offsetField = field) then draft.start id
  else if let some id := draft.sections.find? (·.sizeField = field) then (draft.content id).length
  else draft.others field

/-- The header, followed by the sections. -/
def bytes : List UInt8 :=
  draft.layout.encode .little draft.word ++
    draft.sections.flatMap fun id => Bytes.padded (draft.content id)

/-- **The blob** of a draft. -/
def blob : ByteArray :=
  ⟨draft.bytes.toArray⟩

/-- What is written stays within the ranges of the format. -/
structure Fits : Prop where
  supported : draft.pair.isSupported = true
  contents : ∀ id, draft.has id = true → id.shape.Fits draft.pair (draft.contents id)
  others : ∀ field, draft.others field < 2 ^ 32
  length : draft.bytes.length < 2 ^ 32

variable {draft}

theorem mem_sections_iff {id : SectionId} : id ∈ draft.sections ↔ draft.has id = true :=
  List.mem_filter.trans (and_iff_right id.mem_all)

/-! ### Places in the blob -/

/-- The blob around a section. -/
theorem bytes_eq {id : SectionId} (h : draft.has id = true) : ∃ before after,
    draft.bytes = before ++ draft.content id ++ after ∧ before.length = draft.start id := by
  obtain ⟨before, after, h_eq, h_length⟩ :=
    Bytes.flatMap_padded_eq draft.content (mem_sections_iff.mpr h)
  refine ⟨draft.layout.encode .little draft.word ++ before, after, ?_, ?_⟩
  · rw [bytes, h_eq, List.append_assoc, List.append_assoc, List.append_assoc]
  · rw [List.length_append, ResolvedLayout.length_encode, h_length, start]

theorem toList_blob : draft.blob.data.toList = draft.bytes :=
  List.toList_toArray

theorem size_blob : draft.blob.size = draft.bytes.length :=
  List.size_toArray

/-- Sections end inside the blob. -/
theorem start_add_length_le {id : SectionId} (h : draft.has id = true) :
    draft.start id + (draft.content id).length ≤ draft.blob.size := by
  obtain ⟨before, after, h_eq, h_start⟩ := bytes_eq h
  rw [size_blob, h_eq, List.length_append, List.length_append, h_start]
  exact Nat.le_add_right _ _

/-- The bytes of a section stand at its place. -/
theorem bytesIn_blob {id : SectionId} (h : draft.has id = true) :
    Section.bytesIn ⟨draft.start id, (draft.content id).length⟩ draft.blob = draft.content id := by
  obtain ⟨before, after, h_eq, h_start⟩ := bytes_eq h
  rw [Section.bytesIn, toList_blob, h_eq, List.append_assoc, List.drop_left' h_start,
    List.take_left]

/-! ### The values of the header -/

end Draft

/-- The only element with its key is found. -/
theorem find?_key_eq_some {α κ : Type} [DecidableEq κ] {key : α → κ}
    (h_key : Function.Injective key) {as : List α} {a : α} (h : a ∈ as) :
    as.find? (fun other => key other = key a) = some a := by
  have h_some : (as.find? fun other => key other = key a).isSome = true :=
    List.find?_isSome.mpr ⟨a, h, decide_eq_true rfl⟩
  obtain ⟨found, h_found⟩ := Option.isSome_iff_exists.mp h_some
  have h_eq : key found = key a := by simpa using List.find?_some h_found
  rw [h_found, h_key h_eq]

namespace SectionId

/-- No two sections start in one field. -/
theorem offsetField_injective : Function.Injective offsetField := by
  -- the section can be found from the field
  have h_find (id : SectionId) : all.find? (·.offsetField = id.offsetField) = some id := by
    cases id <;> rfl
  intro id id' h
  rw [← Option.some_inj, ← h_find id, ← h_find id', h]

theorem sizeField_injective : Function.Injective sizeField := by
  have h_find (id : SectionId) : all.find? (·.sizeField = id.sizeField) = some id := by
    cases id <;> rfl
  intro id id' h
  rw [← Option.some_inj, ← h_find id, ← h_find id', h]

theorem offsetField_ne_sizeField (id id' : SectionId) : id.offsetField ≠ id'.sizeField := by
  have h_all : all.all (·.offsetField ≠ id'.sizeField) = true := by
    cases id' <;> rfl
  exact of_decide_eq_true (List.all_eq_true.mp h_all id id.mem_all)

end SectionId

namespace Draft

variable {draft : Draft} {id : SectionId}

/-- The header says where a section starts. -/
theorem word_offsetField (h : draft.has id = true) :
    draft.word id.offsetField = draft.start id := by
  have h_sanity : id.offsetField ≠ .sanity := by cases id <;> decide
  have h_version : id.offsetField ≠ .version := by cases id <;> decide
  rw [word, if_neg h_sanity, if_neg h_version,
    find?_key_eq_some SectionId.offsetField_injective (mem_sections_iff.mpr h)]

/-- The header says how long a section is. -/
theorem word_sizeField (h : draft.has id = true) :
    draft.word id.sizeField = (draft.content id).length := by
  have h_sanity : id.sizeField ≠ .sanity := by cases id <;> decide
  have h_version : id.sizeField ≠ .version := by cases id <;> decide
  have h_none : (draft.sections.find? fun other => other.offsetField = id.sizeField) = none :=
    List.find?_eq_none.mpr fun other _ h_eq =>
      SectionId.offsetField_ne_sizeField other id (of_decide_eq_true h_eq)
  rw [word, if_neg h_sanity, if_neg h_version, h_none,
    find?_key_eq_some SectionId.sizeField_injective (mem_sections_iff.mpr h)]

/-- Everything in the header fits into its field, since the blob is not too long. -/
theorem word_lt (h : draft.Fits) (field : Field) : draft.word field < 2 ^ 32 := by
  have h_end {id : SectionId} (h_id : id ∈ draft.sections) :
      draft.start id + (draft.content id).length < 2 ^ 32 :=
    Nat.lt_of_le_of_lt (start_add_length_le (mem_sections_iff.mp h_id)) (size_blob ▸ h.length)
  unfold word
  split
  · decide
  · split
    · exact Nat.lt_trans (UInt16.toNat_lt _) (by decide)
    · split
      next id h_find =>
        have h_id := h_end (List.mem_of_find?_eq_some h_find)
        omega
      next =>
        split
        next id h_find =>
          have h_id := h_end (List.mem_of_find?_eq_some h_find)
          omega
        next => exact h.others field

/-! ### The header that is read back -/

/-- The header of the blob. -/
def header (draft : Draft) : Header :=
  ⟨draft.layout.record draft.word, draft.pair.metadata.major.toNat⟩

/-- Every field of the header is four bytes wide. -/
theorem fits_word (h : draft.Fits) : draft.layout.Fits draft.word := by
  intro spec h_spec
  have h_widths : RecordKind.metadataHeader.fields.all (·.width = .int32) = true := by decide
  have h_declared : spec ∈ RecordKind.metadataHeader.fields := (List.mem_filter.mp h_spec).1
  have h_width : spec.width = .int32 :=
    of_decide_eq_true (List.all_eq_true.mp h_widths spec h_declared)
  rw [h_width]
  exact word_lt h spec.field

/-- The first two fields of the header are the magic number and the integer version. -/
theorem bytes_eq_magic_version (draft : Draft) : ∃ rest,
    draft.bytes = Endian.little.encode 4 Header.magic ++
      (Endian.little.encode 4 draft.pair.metadata.major.toNat ++ rest) := by
  obtain ⟨specs, h_specs⟩ : ∃ specs, draft.layout.fields =
      FieldSpec.int32 .sanity :: FieldSpec.int32 .version :: specs := ⟨_, rfl⟩
  rw [bytes, ResolvedLayout.encode, h_specs, List.flatMap_cons, List.flatMap_cons,
    List.append_assoc, List.append_assoc]
  exact ⟨_, rfl⟩

/-- An integer that was written is read, wherever it stands. -/
theorem readUInt_eq {data : ByteArray} {offset value : Nat} {rest : List UInt8}
    (h : data.data.toList.drop offset = Endian.little.encode 4 value ++ rest)
    (h_value : value < 256 ^ 4) : Bytes.readUInt data .little 4 offset = .ok value := by
  have h_length := Endian.length_encode .little 4 value
  have h_inside : offset + 4 ≤ data.size := by
    have h_size : data.data.toList.length = data.size := Array.length_toList
    have h_drop := congrArg List.length h
    rw [List.length_drop, List.length_append, h_length, h_size] at h_drop
    omega
  have h_word : Bytes.word? data .little 4 offset = some value := by
    rw [Bytes.word?, Bytes.slice?_eq_some h_inside, h, List.take_left' h_length, Option.map_some,
      Endian.decode_encode .little h_value]
  rw [Bytes.readUInt, if_pos (by decide), h_word]

theorem readAt_blob (h : draft.Fits) :
    draft.layout.readAt draft.blob .little 0 = .ok (draft.layout.record draft.word) := by
  have h_length : (draft.layout.encode .little draft.word).length = draft.layout.size :=
    ResolvedLayout.length_encode ..
  have h_inside : 0 + draft.layout.size ≤ draft.blob.size := by
    rw [size_blob, bytes, List.length_append, h_length]
    omega
  -- the header is the front of the blob
  have h_slice : Bytes.slice? draft.blob 0 draft.layout.size =
      some (draft.layout.encode .little draft.word) := by
    rw [Bytes.slice?_eq_some h_inside, List.drop_zero, toList_blob, bytes,
      List.take_left' h_length]
  have h_read := draft.layout.read_encode .little (fits_word h) []
  rw [List.append_nil] at h_read
  exact ResolvedLayout.readAt_eq_ok_iff.mpr ⟨_, h_slice, h_read⟩

/-- **The header** that was written is read. -/
theorem read_blob (h : draft.Fits) : Header.read draft.blob draft.pair = .ok draft.header := by
  obtain ⟨rest, h_rest⟩ := bytes_eq_magic_version draft
  have h_magic : Bytes.readUInt draft.blob .little 4 0 = .ok Header.magic :=
    readUInt_eq (by rw [List.drop_zero, toList_blob, h_rest]) (by decide)
  have h_version : Bytes.readUInt draft.blob .little 4 4 =
      .ok draft.pair.metadata.major.toNat := by
    have h_drop : draft.blob.data.toList.drop 4 =
        Endian.little.encode 4 draft.pair.metadata.major.toNat ++ rest := by
      rw [toList_blob, h_rest, List.drop_left' (Endian.length_encode ..)]
    exact readUInt_eq h_drop (Nat.lt_trans (UInt16.toNat_lt _) (by decide))
  refine (Header.read_eq_ok_iff h.supported).mpr ⟨?_, readAt_blob h⟩
  unfold Header.integerVersion Header.peek
  rw [h_magic, h_version]
  rfl

/-! ### The bytes that the header leads to -/

theorem declared?_header (draft : Draft) (id : SectionId) : draft.header.declared? id =
    if draft.has id then some ⟨draft.start id, (draft.content id).length⟩ else none := by
  have h_offset := draft.layout.get?_record draft.word id.offsetField
  have h_size := draft.layout.get?_record draft.word id.sizeField
  unfold Header.declared? header
  dsimp only
  rw [h_offset, h_size]
  cases h_has : draft.has id with
  | true =>
    obtain ⟨h_has_offset, h_has_size⟩ := Bool.and_eq_true_iff.mp h_has
    rw [if_pos h_has_offset, if_pos h_has_size, word_offsetField h_has, word_sizeField h_has]
    rfl
  | false =>
    rcases Bool.and_eq_false_iff.mp h_has with h_has_offset | h_has_size
    · rw [h_has_offset]
      rfl
    · rw [h_has_size]
      cases draft.layout.fields.any fun spec => spec.field = id.offsetField <;> rfl

/-- Every section lies inside the blob. -/
theorem inside_blob {place : Section} (h : draft.header.declared? id = some place) :
    place.offset + place.size ≤ draft.blob.size := by
  rw [declared?_header] at h
  split at h
  next h_has =>
    cases h
    exact start_add_length_le h_has
  next => cases h

/-- What a section holds, nothing for one that the version does not have. -/
def present (draft : Draft) (id : SectionId) : id.shape.Content :=
  if draft.has id then draft.contents id else id.shape.empty

theorem fits_present (h : draft.Fits) (id : SectionId) :
    id.shape.Fits draft.pair (draft.present id) := by
  unfold present
  split
  next h_has => exact h.contents id h_has
  next => exact Shape.fits_empty draft.pair id.shape

/-- **The bytes of a section** are those of what it holds. -/
theorem bytesOf_blob (draft : Draft) (id : SectionId) :
    draft.header.bytesOf draft.blob id = id.shape.encode draft.pair (draft.present id) := by
  unfold Header.bytesOf present
  rw [declared?_header]
  split
  next h_has => exact bytesIn_blob h_has
  next => exact (Shape.encode_empty draft.pair id.shape).symm

end Draft

/-! ### An image to go with a blob -/

/-- An image of zeros. All its registration tables are empty. -/
def RegistrationSource.zeros : RegistrationSource :=
  ⟨⟨.flat, ⟨Array.replicate 256 0⟩, [⟨0x1000, 0, 256⟩], .bits64, .little⟩, 0x1000, 0x1000⟩

end GlobalMetadata
