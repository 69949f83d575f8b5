import GlobalMetadata.Proofs.Revision

/-!
# Rows out of step

The first two layouts of 24 have the same header, and detection tells them apart by the managed
modules: it reads the images as rows of 24.0, each of which ends in the token of its module. The
rows of 24.1 are two fields longer, so that the words where tokens are expected belong to other
columns.

A table of four-byte fields is a run of words (`ResolvedLayout.word_of_flatMap_encode`), and of that
run detection looks at every eighth word (`ImageDefinition.any_token_ne_flatMap_iff`). Rows of ten
words are in step with rows of eight again after four of them. Hence there are four kinds of rows of
24.1, each with columns of its own that are taken for tokens (`ImageDefinition.misread`): the token
itself in the first kind, and counts and indices in the others.

So a blob of 24.1 is recognized exactly if one of these columns does not hold a 1
(`VersionPair.recognizes_images_iff`). With one module there is nothing but its token, and the blob
is taken for one of 24.0.
-/

namespace GlobalMetadata

/-! ### Pieces and words -/

theorem Bytes.mem_chunks_iff {size count : Nat} {bytes piece : List UInt8} :
    piece ∈ chunks size count bytes ↔
      ∃ i < count, (bytes.drop (i * size)).take size = piece := by
  rw [chunks_eq_map, List.mem_map]
  simp only [List.mem_range]

/-- Among things that are written with one size, each starts at a multiple of it. -/
theorem drop_flatMap_of_length_eq {α : Type} {size : Nat} {write : α → List UInt8} {as : List α}
    (h : ∀ a ∈ as, (write a).length = size) {i : Nat} {a : α} (h_get : as[i]? = some a) :
    ∃ rest, (as.flatMap write).drop (i * size) = write a ++ rest := by
  induction as generalizing i with
  | nil => cases h_get
  | cons first as ih =>
    rw [List.flatMap_cons]
    cases i with
    | zero =>
      cases h_get
      exact ⟨as.flatMap write, by rw [Nat.zero_mul, List.drop_zero]⟩
    | succ i =>
      rw [Nat.succ_mul, Nat.add_comm, ← List.drop_drop,
        List.drop_left' (h first List.mem_cons_self)]
      exact ih (fun a' h_a' => h a' (List.mem_cons_of_mem first h_a')) h_get

/-- The size of a row of four-byte fields. -/
theorem ResolvedLayout.size_eq_of_words {layout : ResolvedLayout}
    (h_width : ∀ spec ∈ layout.fields, spec.width.bytes layout.pointerWidth = 4) :
    layout.size = layout.fields.length * 4 := by
  have h_encode : (layout.encode .little fun _ => 0).length = layout.size :=
    ResolvedLayout.length_encode ..
  rw [← h_encode, encode]
  exact length_flatMap_of_length_eq _ fun spec h_spec => by
    rw [Endian.length_encode, h_width spec h_spec]

/-- **Words.** In a table of four-byte fields, every word is the value of a column of some row. -/
theorem ResolvedLayout.word_of_flatMap_encode {layout : ResolvedLayout}
    (h_width : ∀ spec ∈ layout.fields, spec.width.bytes layout.pointerWidth = 4)
    {rows : List (Field → Nat)} {i c : Nat} {values : Field → Nat} {spec : FieldSpec}
    (h_row : rows[i]? = some values) (h_column : layout.fields[c]? = some spec)
    (h_fits : layout.Fits values) :
    Endian.little.decode (((rows.flatMap (layout.encode .little)).drop
      ((i * layout.fields.length + c) * 4)).take 4) = values spec.field := by
  let write : FieldSpec → List UInt8 := fun spec =>
    Endian.little.encode (spec.width.bytes layout.pointerWidth) (values spec.field)
  have h_length (spec : FieldSpec) (h_spec : spec ∈ layout.fields) : (write spec).length = 4 := by
    rw [Endian.length_encode, h_width spec h_spec]
  have h_spec := List.mem_of_getElem? h_column
  obtain ⟨rows', h_rows'⟩ :=
    drop_flatMap_of_length_eq (fun values _ => layout.length_encode .little) h_row
  obtain ⟨specs', h_specs'⟩ := drop_flatMap_of_length_eq h_length h_column
  have h_before : c * 4 ≤ (layout.encode .little values).length := by
    obtain ⟨h_c, -⟩ := List.getElem?_eq_some_iff.mp h_column
    rw [encode, length_flatMap_of_length_eq layout.fields h_length]
    exact Nat.mul_le_mul_right 4 (Nat.le_of_lt h_c)
  have h_place : (i * layout.fields.length + c) * 4 = i * layout.size + c * 4 := by
    rw [size_eq_of_words h_width, Nat.add_mul, Nat.mul_assoc]
  have h_word := Endian.decode_encode .little (h_fits spec h_spec)
  rw [h_place, ← List.drop_drop, h_rows', List.drop_append_of_le_length h_before, encode, h_specs',
    List.append_assoc, List.take_left' (h_length spec h_spec), h_word]

/-! ### The tokens that detection sees -/

namespace ImageDefinition

/-- The layout of the images of a version. -/
def layout (version : Version) : ResolvedLayout :=
  (Row.kind ImageDefinition).blobLayout (.uniform version)

/-- The fields that 24.0 has are the first eight of those of 24.1. -/
theorem fields_layout_0 : (layout ⟨24, 0⟩).fields = Layout.imageDefinition.take 8 :=
  rfl

theorem fields_layout_1 : (layout ⟨24, 1⟩).fields = Layout.imageDefinition :=
  rfl

/-- What becomes the token of a row. -/
theorem token_eq_of_ofRecord {record : Record} {image : ImageDefinition}
    (h : Row.ofRecord record = .ok image) : image.token = record.uint32? .token := by
  simp only [Row.ofRecord] at h
  obtain ⟨nameIndex, -, h⟩ := except_bind_eq_ok_iff.mp h
  obtain ⟨assemblyIndex, -, h⟩ := except_bind_eq_ok_iff.mp h
  obtain ⟨typeStart, -, h⟩ := except_bind_eq_ok_iff.mp h
  obtain ⟨typeCount, -, h⟩ := except_bind_eq_ok_iff.mp h
  obtain ⟨entryPointIndex, -, h⟩ := except_bind_eq_ok_iff.mp h
  cases h
  rfl

/-- A row of 24.0 ends in its token. -/
theorem token_of_read {piece : List UInt8} (h : piece.length = 32) : ∃ image : ImageDefinition,
    ((layout ⟨24, 0⟩).read .little piece >>= Row.ofRecord) = .ok image ∧
      image.token = some (asUInt32 (Endian.little.decode ((piece.drop 28).take 4))) := by
  have h_size : (layout ⟨24, 0⟩).size = 32 := rfl
  have h_long : (layout ⟨24, 0⟩).size ≤ piece.length := Nat.le_of_eq (h_size.trans h.symm)
  obtain ⟨record, image, h_read, h_image, -⟩ :=
    exists_row (α := ImageDefinition) (.uniform ⟨24, 0⟩) h_long default
  change (layout ⟨24, 0⟩).read .little piece = .ok record at h_read
  refine ⟨image, by rw [h_read]; exact h_image, ?_⟩
  have h_token : record.get? .token = some (Endian.little.decode ((piece.drop 28).take 4)) := by
    have h_drop : piece.drop 28 =
        ((((((piece.drop 4).drop 4).drop 4).drop 4).drop 4).drop 4).drop 4 := by
      simp only [List.drop_drop]
    unfold ResolvedLayout.read at h_read
    rw [fields_layout_0, if_neg (Nat.not_lt.mpr h_long)] at h_read
    cases h_read
    rw [h_drop]
    rfl
  rw [token_eq_of_ofRecord h_image, Record.uint32?, h_token]
  rfl

/-- Pieces of 32 bytes are the rows of 24.0. -/
theorem mem_rowsOf_iff {bytes : List UInt8} {image : ImageDefinition} :
    image ∈ rowsOf ImageDefinition (.uniform ⟨24, 0⟩) bytes ↔
      ∃ j, j * 32 + 32 ≤ bytes.length ∧
        ((layout ⟨24, 0⟩).read .little ((bytes.drop (j * 32)).take 32) >>= Row.ofRecord) =
          .ok image := by
  have h_size : (layout ⟨24, 0⟩).size = 32 := rfl
  have h_rows : rowsOf ImageDefinition (.uniform ⟨24, 0⟩) bytes =
      (Bytes.chunks 32 (bytes.length / 32) bytes).filterMap fun piece =>
        ((layout ⟨24, 0⟩).read .little piece >>= Row.ofRecord).toOption := by
    rw [← h_size]
    rfl
  have h_room (j : Nat) : j < bytes.length / 32 ↔ j * 32 + 32 ≤ bytes.length := by omega
  rw [h_rows, List.mem_filterMap]
  constructor
  · rintro ⟨piece, h_piece, h_some⟩
    obtain ⟨j, h_j, rfl⟩ := Bytes.mem_chunks_iff.mp h_piece
    exact ⟨j, (h_room j).mp h_j, toOption_eq_some_iff.mp h_some⟩
  · rintro ⟨j, h_j, h_ok⟩
    exact ⟨_, Bytes.mem_chunks_iff.mpr ⟨j, (h_room j).mpr h_j, rfl⟩, toOption_eq_some_iff.mpr h_ok⟩

/-- **Tokens.** Read as rows of 24.0, bytes have a token other than 1 exactly if one of the words
where tokens are expected is another number. -/
theorem any_token_ne_iff {bytes : List UInt8} :
    (rowsOf ImageDefinition (.uniform ⟨24, 0⟩) bytes).any
        (·.token ≠ some Version.moduleToken) = true ↔
      ∃ j, j * 32 + 32 ≤ bytes.length ∧
        asUInt32 (Endian.little.decode ((bytes.drop (j * 32 + 28)).take 4)) ≠
          Version.moduleToken := by
  have h_token {j : Nat} (h_j : j * 32 + 32 ≤ bytes.length) : ∃ image : ImageDefinition,
      ((layout ⟨24, 0⟩).read .little ((bytes.drop (j * 32)).take 32) >>= Row.ofRecord) =
          .ok image ∧
        image.token =
          some (asUInt32 (Endian.little.decode ((bytes.drop (j * 32 + 28)).take 4))) := by
    have h_length : ((bytes.drop (j * 32)).take 32).length = 32 := by
      rw [List.length_take, List.length_drop]
      omega
    obtain ⟨image, h_image, h_token⟩ := token_of_read h_length
    refine ⟨image, h_image, ?_⟩
    rwa [List.drop_take, List.drop_drop, List.take_take] at h_token
  rw [List.any_eq_true]
  constructor
  · rintro ⟨image, h_image, h_ne⟩
    obtain ⟨j, h_j, h_read⟩ := mem_rowsOf_iff.mp h_image
    obtain ⟨image', h_read', h_image'⟩ := h_token h_j
    cases h_read.symm.trans h_read'
    refine ⟨j, h_j, fun h_eq => of_decide_eq_true h_ne ?_⟩
    rw [h_image', h_eq]
  · rintro ⟨j, h_j, h_ne⟩
    obtain ⟨image, h_read, h_image⟩ := h_token h_j
    refine ⟨image, mem_rowsOf_iff.mpr ⟨j, h_j, h_read⟩, decide_eq_true fun h_eq => h_ne ?_⟩
    exact Option.some.inj (h_image.symm.trans h_eq)

/-! ### Columns that are taken for tokens -/

section Columns

variable {version : Version} {images : List (Field → Nat)}

/-- The columns of row `i` that stand where rows of eight words have their last one. -/
def seen (version : Version) (i : Nat) : List Field :=
  ((layout version).fields.zipIdx.filter fun (_, c) =>
    (i * (layout version).fields.length + c) % 8 = 7).map (·.1.field)

theorem mem_seen_iff {i : Nat} {field : Field} :
    field ∈ seen version i ↔ ∃ c spec, (layout version).fields[c]? = some spec ∧
      spec.field = field ∧ (i * (layout version).fields.length + c) % 8 = 7 := by
  unfold seen
  rw [List.mem_map]
  constructor
  · rintro ⟨⟨spec, c⟩, h_mem, h_field⟩
    obtain ⟨h_zip, h_place⟩ := List.mem_filter.mp h_mem
    exact ⟨c, spec, List.mem_zipIdx_iff_getElem?.mp h_zip, h_field, of_decide_eq_true h_place⟩
  · rintro ⟨c, spec, h_spec, h_field, h_place⟩
    refine ⟨(spec, c), List.mem_filter.mpr ⟨?_, decide_eq_true h_place⟩, h_field⟩
    exact List.mem_zipIdx_iff_getElem?.mpr h_spec

/-- The columns of a row of 24.1 that stand where the rows of 24.0 have their tokens. -/
def misread (i : Nat) : List Field :=
  match i % 4 with
  | 0 => [.token]
  | 1 => [.exportedTypeCount]
  | 2 => [.typeCount]
  | _ => [.assemblyIndex, .customAttributeCount]

theorem seen_0 (i : Nat) : seen ⟨24, 0⟩ i = [.token] := by
  have h_place (c : Nat) : (i * 8 + c) % 8 = c % 8 := by omega
  unfold seen
  rw [fields_layout_0]
  show ((Layout.imageDefinition.take 8).zipIdx.filter fun (_, c) => (i * 8 + c) % 8 = 7).map _ = _
  simp only [h_place]
  decide

theorem seen_1 (i : Nat) : seen ⟨24, 1⟩ i = misread i := by
  have h_place (c : Nat) : (i * 10 + c) % 8 = (i % 4 * 10 + c) % 8 := by omega
  have h_rows : ∀ r < 4, (Layout.imageDefinition.zipIdx.filter fun (_, c) =>
      (r * 10 + c) % 8 = 7).map (·.1.field) = misread r := by
    decide
  have h_misread : misread (i % 4) = misread i := by rw [misread, misread, Nat.mod_mod]
  unfold seen
  rw [fields_layout_1, ← h_misread, ← h_rows (i % 4) (Nat.mod_lt i (by decide))]
  show (Layout.imageDefinition.zipIdx.filter fun (_, c) => (i * 10 + c) % 8 = 7).map _ = _
  simp only [h_place]

/-- What detection looks at in the images of a version. -/
theorem any_token_ne_flatMap_iff
    (h_width : ∀ spec ∈ (layout version).fields, spec.width = .int32)
    (h_fits : ∀ image ∈ images, (layout version).Fits image) :
    (rowsOf ImageDefinition (.uniform ⟨24, 0⟩)
        (images.flatMap ((layout version).encode .little))).any
          (·.token ≠ some Version.moduleToken) = true ↔
      ∃ i image, images[i]? = some image ∧
        ∃ field ∈ seen version i, image field ≠ Version.moduleToken := by
  let width := (layout version).fields.length
  let bytes := images.flatMap ((layout version).encode .little)
  have h_bytes : ∀ spec ∈ (layout version).fields,
      spec.width.bytes (layout version).pointerWidth = 4 := fun spec h_spec => by
    rw [h_width spec h_spec]
    rfl
  have h_length : bytes.length = images.length * width * 4 := by
    rw [Nat.mul_assoc, ← ResolvedLayout.size_eq_of_words h_bytes]
    exact length_flatMap_of_length_eq images fun _ _ => ResolvedLayout.length_encode ..
  -- column c of row i is the word number i * width + c
  have h_word {i c : Nat} {image : Field → Nat} {spec : FieldSpec}
      (h_image : images[i]? = some image) (h_spec : (layout version).fields[c]? = some spec) :
      asUInt32 (Endian.little.decode ((bytes.drop ((i * width + c) * 4)).take 4)) =
        image spec.field := by
    have h_image_fits := h_fits image (List.mem_of_getElem? h_image)
    have h_lt := h_image_fits spec (List.mem_of_getElem? h_spec)
    rw [h_bytes spec (List.mem_of_getElem? h_spec)] at h_lt
    rw [ResolvedLayout.word_of_flatMap_encode h_bytes h_image h_spec h_image_fits]
    exact Nat.mod_eq_of_lt h_lt
  rw [any_token_ne_iff]
  constructor
  · rintro ⟨j, h_j, h_ne⟩
    have h_lt : j * 8 + 7 < images.length * width := by
      change j * 32 + 32 ≤ bytes.length at h_j
      omega
    have h_width_pos : 0 < width := Nat.pos_of_mul_pos_left (Nat.zero_lt_of_lt h_lt)
    let i := (j * 8 + 7) / width
    let c := (j * 8 + 7) % width
    have h_place : i * width + c = j * 8 + 7 := Nat.div_add_mod' ..
    have h_i : i < images.length := (Nat.div_lt_iff_lt_mul h_width_pos).mpr h_lt
    have h_image := List.getElem?_eq_getElem h_i
    have h_spec : (layout version).fields[c]? = some _ :=
      List.getElem?_eq_getElem (Nat.mod_lt _ h_width_pos)
    refine ⟨i, _, h_image, _, mem_seen_iff.mpr ⟨c, _, h_spec, rfl, ?_⟩, ?_⟩
    · show (i * width + c) % 8 = 7
      omega
    · rw [← h_word h_image h_spec, h_place]
      rwa [show j * 32 + 28 = (j * 8 + 7) * 4 by omega] at h_ne
  · rintro ⟨i, image, h_image, field, h_field, h_ne⟩
    obtain ⟨c, spec, h_spec, rfl, h_place⟩ := mem_seen_iff.mp h_field
    change (i * width + c) % 8 = 7 at h_place
    obtain ⟨h_i, -⟩ := List.getElem?_eq_some_iff.mp h_image
    obtain ⟨h_c, -⟩ := List.getElem?_eq_some_iff.mp h_spec
    have h_rows : (i + 1) * width ≤ images.length * width := Nat.mul_le_mul_right width h_i
    have h_lt : i * width + c < images.length * width := by
      refine Nat.lt_of_lt_of_le ?_ h_rows
      rw [Nat.succ_mul]
      exact Nat.add_lt_add_left h_c _
    refine ⟨(i * width + c) / 8, ?_, ?_⟩
    · show _ ≤ bytes.length
      omega
    · have h_offset : (i * width + c) / 8 * 32 + 28 = (i * width + c) * 4 := by omega
      rw [h_offset, h_word h_image h_spec]
      exact h_ne

end Columns

/-- Every column that is taken for a token happens to hold a 1. -/
def Unmarked (images : List (Field → Nat)) : Prop :=
  ∀ i image, images[i]? = some image → ∀ field ∈ misread i, image field = Version.moduleToken

/-- A lone module is not marked: the words behind its token do not make a row. -/
theorem unmarked_singleton {image : Field → Nat} (h : image .token = Version.moduleToken) :
    Unmarked [image] := by
  intro i image' h_image field h_field
  cases i with
  | zero =>
    cases h_image
    cases List.mem_singleton.mp h_field
    exact h
  | succ i => cases h_image

end ImageDefinition

/-! ### Detection -/

/-- A blob that was laid out for a version of the integer 24 and holds given images: the string
literals follow right behind its header, and the images stand inside. -/
structure HoldsImages (version : Version) (images : List (Field → Nat)) (header : Header)
    (data : ByteArray) : Prop where
  read : Header.read data (.uniform version) = .ok header
  integer : header.version = Version.shared
  literals : header.record.get? .stringLiteralOffset =
    some (RecordKind.metadataHeader.blobLayout (.uniform version)).size
  inside : ∀ place, header.declared? .images = some place →
    place.offset + place.size ≤ data.size
  images : header.bytesOf data .images =
    images.flatMap ((ImageDefinition.layout version).encode .little)

section Detection

variable {version : Version} {images : List (Field → Nat)} {header : Header} {data : ByteArray}

theorem Version.eq_of_hasLongHeader (h : version.hasLongHeader = true) :
    version = ⟨24, 0⟩ ∨ version = ⟨24, 1⟩ := by
  rcases Bool.or_eq_true_iff.mp h with h | h
  · exact .inl (of_decide_eq_true h)
  · exact .inr (of_decide_eq_true h)

/-- **One table decides.** In a blob with the longer header, the rows of 24.0 are looked at. -/
theorem Version.detect24_eq (h : HoldsImages version images header data)
    (h_version : version.hasLongHeader = true) :
    detect24 data =
      .ok (if (rowsOf ImageDefinition (.uniform ⟨24, 0⟩) (header.bytesOf data .images)).any
        (·.token ≠ some moduleToken) then ⟨24, 1⟩ else ⟨24, 0⟩) := by
  obtain ⟨h_supported, h_header, h_size⟩ : (VersionPair.uniform version).isSupported = true ∧
      (Layout.of .metadataHeader).present (.uniform version) =
        (Layout.of .metadataHeader).present (.uniform ⟨24, 0⟩) ∧
      (RecordKind.metadataHeader.blobLayout (.uniform version)).size = 272 := by
    rcases eq_of_hasLongHeader h_version with rfl | rfl <;> decide
  obtain ⟨-, h_record⟩ := (Header.read_eq_ok_iff h_supported).mp h.read
  obtain ⟨specs, h_fields⟩ : ∃ specs,
      (RecordKind.metadataHeader.blobLayout (.uniform version)).fields =
        .int32 .sanity :: .int32 .version :: .int32 .stringLiteralOffset :: specs := ⟨_, rfl⟩
  have h_literals := readUInt_stringLiteralOffset h_fields h_record h.literals
  -- the version of the header does not show in the place of the images
  let header' : Header := { header with record := { header.record with version := ⟨24, 0⟩ } }
  have h_read : Header.read data (.uniform ⟨24, 0⟩) = .ok header' :=
    Header.read_congr h_supported (by decide) h_header h.read
  have h_check : header'.check .images data.size = .ok () := Header.check_eq_ok h.inside
  unfold detect24
  rw [h_literals, h_size]
  show (Header.read data (.uniform ⟨24, 0⟩) >>= fun header =>
    header.locate .images data.size >>= fun place =>
      readTable ImageDefinition data .images place (.uniform ⟨24, 0⟩) >>= fun images =>
        pure (if images.any (·.token ≠ some moduleToken) then _ else _)) = _
  rw [h_read]
  show (header'.locate .images data.size >>= fun place =>
    readTable ImageDefinition data .images place (.uniform ⟨24, 0⟩) >>= fun images =>
      pure (if images.any (·.token ≠ some moduleToken) then _ else _)) = _
  rw [Header.locate_bind_readTable (by decide), h_check]
  rfl

/-- **24.0 and 24.1.** Let a blob be laid out for one of them and hold images whose module tokens
are 1. Then one of them is detected, on both axes. It is the right one, unless the blob was laid out
for 24.1 and every column that is taken for a token holds a 1 as well: the number of exported types
in every fourth row from the second on, the number of types in every fourth row from the third on,
and both the assembly and the number of attributes in every fourth row from the fourth on. -/
theorem VersionPair.recognizes_images_iff {config : Config}
    (h : HoldsImages version images header data) (h_version : version.hasLongHeader = true)
    (h_fits : ∀ image ∈ images, (ImageDefinition.layout version).Fits image)
    (h_tokens : ∀ image ∈ images, image .token = Version.moduleToken)
    (h_metadata : config.metadataVersion = none)
    (h_registration : config.registrationVersion = none) :
    ∃ detected, VersionPair.detect data config = .ok (.uniform detected) ∧
      detected.hasLongHeader = true ∧
      (detected = version ↔ (version = ⟨24, 1⟩ → ¬ ImageDefinition.Unmarked images)) := by
  obtain ⟨h_supported, h_fields⟩ : (VersionPair.uniform version).isSupported = true ∧
      ∀ spec ∈ (ImageDefinition.layout version).fields, spec.width = .int32 := by
    rcases Version.eq_of_hasLongHeader h_version with rfl | rfl <;> decide
  obtain ⟨h_integer, -⟩ := (Header.read_eq_ok_iff h_supported).mp h.read
  let found := (rowsOf ImageDefinition (.uniform ⟨24, 0⟩) (header.bytesOf data .images)).any
    (·.token ≠ some Version.moduleToken)
  let detected : Version := if found then ⟨24, 1⟩ else ⟨24, 0⟩
  have h_long : detected.hasLongHeader = true := by
    cases h_found : found <;> simp only [detected, h_found] <;> decide
  have h_ensure : (VersionPair.uniform detected).ensureSupported = .ok () := by
    refine VersionPair.ensureSupported_eq_ok_iff.mpr ?_
    rcases Version.eq_of_hasLongHeader h_long with h_eq | h_eq <;> rw [h_eq] <;> decide
  have h_found : found = true ↔ ∃ i image, images[i]? = some image ∧
      ∃ field ∈ ImageDefinition.seen version i, image field ≠ Version.moduleToken := by
    rw [← ImageDefinition.any_token_ne_flatMap_iff h_fields h_fits, ← h.images]
  refine ⟨detected, ?_, h_long, ?_⟩
  · unfold VersionPair.detect
    rw [h_integer, h.integer, h_metadata, h_registration]
    show (Version.detect24 data >>= fun version => _) = _
    rw [Version.detect24_eq h h_version]
    show ((VersionPair.uniform detected).ensureSupported >>= fun _ => _) = _
    rw [h_ensure]
    rfl
  · rcases Version.eq_of_hasLongHeader h_version with rfl | rfl
    · -- what is looked at are the tokens themselves
      have h_not : ¬ found = true := by
        rw [h_found]
        rintro ⟨i, image, h_image, field, h_field, h_ne⟩
        rw [ImageDefinition.seen_0, List.mem_singleton] at h_field
        exact h_ne (h_field ▸ h_tokens image (List.mem_of_getElem? h_image))
      exact iff_of_true (if_neg h_not) fun h_eq => absurd h_eq (by decide)
    · have h_detected : detected = ⟨24, 1⟩ ↔ found = true := by
        cases h_cases : found <;> simp only [detected, h_cases] <;> decide
      have h_marked : found = true ↔ ¬ ImageDefinition.Unmarked images := by
        simp only [h_found, ImageDefinition.seen_1, ImageDefinition.Unmarked, not_forall,
          exists_prop]
      rw [h_detected, h_marked]
      exact ⟨fun h_not _ => h_not, fun h_not => h_not rfl⟩

end Detection

/-! ### Blobs that are taken for others -/

namespace Draft

/-- A blob of 24.1 with given images. -/
def ofImages (images : List (Field → Nat)) : Draft where
  pair := .uniform ⟨24, 1⟩
  contents
    | .images => images
    | id => id.shape.empty
  others _ := 0

variable {images : List (Field → Nat)}

theorem fits_ofImages
    (h : ∀ image ∈ images, (ImageDefinition.layout ⟨24, 1⟩).Fits image)
    (h_length : (ofImages images).bytes.length < 2 ^ 32) : (ofImages images).Fits where
  supported := (by decide : (VersionPair.uniform ⟨24, 1⟩).isSupported = true)
  contents id _ := by
    cases id with
    | images => exact h
    | _ => exact Shape.fits_empty _ _
  others _ := Nat.two_pow_pos 32
  length := h_length

theorem holdsImages_blob (h : (ofImages images).Fits) :
    HoldsImages ⟨24, 1⟩ images (ofImages images).header (ofImages images).blob where
  read := (writtenFor_blob h).read
  integer := rfl
  literals := (writtenFor_blob h).literals
  inside := (writtenFor_blob h).inside .images
  images := bytesOf_blob ..

/-- Modules with nothing but their tokens. -/
def bare (count : Nat) : List (Field → Nat) :=
  List.replicate count fun field => if field = .token then Version.moduleToken else 0

theorem fits_bare (count : Nat) :
    ∀ image ∈ bare count, (ImageDefinition.layout ⟨24, 1⟩).Fits image := by
  intro image h_image
  rw [List.eq_of_mem_replicate h_image]
  show ∀ spec ∈ (ImageDefinition.layout ⟨24, 1⟩).fields,
    (if spec.field = .token then Version.moduleToken else 0) < 256 ^ spec.width.bytes .bits32
  decide

theorem token_bare (count : Nat) : ∀ image ∈ bare count, image .token = Version.moduleToken := by
  intro image h_image
  rw [List.eq_of_mem_replicate h_image]
  exact if_pos rfl

end Draft

/-- A blob of 24.1 with one module is taken for one of 24.0. With two modules it is recognized if
the second one exports no types. -/
theorem VersionPair.recognizes_images_bare :
    VersionPair.detect (Draft.ofImages (Draft.bare 1)).blob .standard = .ok (.uniform ⟨24, 0⟩) ∧
      VersionPair.detect (Draft.ofImages (Draft.bare 2)).blob .standard =
        .ok (.uniform ⟨24, 1⟩) := by
  have h_fits (count : Nat)
      (h_length : (Draft.ofImages (Draft.bare count)).bytes.length < 2 ^ 32) :
      (Draft.ofImages (Draft.bare count)).Fits :=
    Draft.fits_ofImages (Draft.fits_bare count) h_length
  have h_metadata : Config.standard.metadataVersion = none := rfl
  have h_registration : Config.standard.registrationVersion = none := rfl
  constructor
  · obtain ⟨detected, h_detect, h_long, h_iff⟩ := recognizes_images_iff
      (Draft.holdsImages_blob (h_fits 1 (by decide +kernel))) (by decide) (Draft.fits_bare 1)
      (Draft.token_bare 1) h_metadata h_registration
    have h_unmarked : ImageDefinition.Unmarked (Draft.bare 1) :=
      ImageDefinition.unmarked_singleton rfl
    rcases Version.eq_of_hasLongHeader h_long with rfl | rfl
    · exact h_detect
    · exact absurd h_unmarked (h_iff.mp rfl rfl)
  · obtain ⟨detected, h_detect, -, h_iff⟩ := recognizes_images_iff
      (Draft.holdsImages_blob (h_fits 2 (by decide +kernel))) (by decide) (Draft.fits_bare 2)
      (Draft.token_bare 2) h_metadata h_registration
    have h_marked : ¬ ImageDefinition.Unmarked (Draft.bare 2) := fun h_unmarked =>
      absurd (h_unmarked 1 _ rfl .exportedTypeCount List.mem_cons_self) (by decide)
    rw [h_detect, h_iff.mpr fun _ => h_marked]

end GlobalMetadata
