import GlobalMetadata.Proofs.Blob
import GlobalMetadata.Proofs.Inversion
import GlobalMetadata.Proofs.Reading

/-!
# Arrays, element by element

An array is read in one piece: its bytes are sliced as a whole and then cut up. That is to be the
same as reading one element after the other, each from its own place.

`Bytes.readSlice` is any reading that turns a slice of known length into a value, and fails if the
slice does not lie inside the data. For these the statement is made once
(`Bytes.readSlice_chunks`): where the array lies inside, so does every element, and the pieces are
their slices; and where it does not, the last element does not either. Structures, pointers and
indices are read in this way, so that what is left is to say so of each of them.

An array with no elements is a matter of its own, because its place is not looked at everywhere.
-/

namespace GlobalMetadata

/-! ### Slices -/

namespace Bytes

variable {α : Type} {data : ByteArray} {size offset length count : Nat}

/-- Turns the `length` bytes at `offset` into a value, if all of them lie inside the data. -/
def readSlice (data : ByteArray) (length : Nat) (convert : List UInt8 → α) (offset : Nat) :
    Except Error α :=
  match slice? data offset length with
  | some bytes => .ok (convert bytes)
  | none => .error .outOfBounds

variable {convert : List UInt8 → α}

theorem readSlice_of_inside (h : offset + length ≤ data.size) :
    readSlice data length convert offset =
      .ok (convert ((data.data.toList.drop offset).take length)) := by
  rw [readSlice, slice?_eq_some h]

theorem readSlice_of_outside (h : ¬ offset + length ≤ data.size) :
    readSlice data length convert offset = .error .outOfBounds := by
  rw [readSlice, slice?, part?, if_neg h]
  rfl

theorem exists_readSlice_iff :
    (∃ a, readSlice data length convert offset = .ok a) ↔ offset + length ≤ data.size := by
  constructor
  · rintro ⟨a, h_a⟩
    refine Decidable.by_contra fun h => ?_
    rw [readSlice_of_outside h] at h_a
    cases h_a
  · intro h
    exact ⟨_, readSlice_of_inside h⟩

theorem raises_readSlice (data : ByteArray) (length : Nat) (convert : List UInt8 → α)
    (offset : Nat) : Raises (· = .outOfBounds) (readSlice data length convert offset) := by
  unfold readSlice
  split
  · exact .ok _
  · exact .error rfl

/-- An array lies inside the data if each of its elements does. -/
theorem inside_iff (h : count ≠ 0) :
    offset + count * size ≤ data.size ↔ ∀ k < count, offset + k * size + size ≤ data.size := by
  have h_end (k : Nat) : offset + k * size + size = offset + (k + 1) * size := by
    rw [Nat.succ_mul, Nat.add_assoc]
  constructor
  · intro h_inside k h_k
    rw [h_end]
    exact Nat.le_trans (Nat.add_le_add_left (Nat.mul_le_mul_right size h_k) offset) h_inside
  · -- the last element ends where the array does
    intro h_each
    have h_last := h_each (count - 1) (Nat.pred_lt h)
    rwa [h_end, Nat.sub_add_cancel (Nat.one_le_iff_ne_zero.mpr h)] at h_last

/-- **Arrays.** Slicing an array as a whole and cutting it up is the same as slicing its elements
one after the other, also where it fails. -/
theorem readSlice_chunks (data : ByteArray) (size : Nat) (convert : List UInt8 → α) (offset : Nat)
    (h : count ≠ 0) :
    readSlice data (count * size) (fun bytes => (chunks size count bytes).map convert) offset =
      (List.range count).mapM fun k => readSlice data size convert (offset + k * size) := by
  by_cases h_inside : offset + count * size ≤ data.size
  · have h_each := (inside_iff h).mp h_inside
    rw [readSlice_of_inside h_inside, chunks_take, chunks_eq_map, List.map_map]
    refine (mapM_eq_ok_map fun k h_k => ?_).symm
    rw [readSlice_of_inside (h_each k (List.mem_range.mp h_k)), Function.comp_apply, List.drop_drop]
  · obtain ⟨k, h_k, h_outside⟩ : ∃ k < count, ¬ offset + k * size + size ≤ data.size := by
      simpa using mt (inside_iff h).mpr h_inside
    rw [readSlice_of_outside h_inside]
    exact (mapM_eq_error (f := fun k => readSlice data size convert (offset + k * size))
      (fun k _ => raises_readSlice data size convert _) (List.mem_range.mpr h_k)
      (readSlice_of_outside h_outside)).symm

end Bytes

/-! ### Structures -/

namespace ResolvedLayout

/-- The record of the structure at the start of some bytes. -/
def recordOf (layout : ResolvedLayout) (endian : Endian) (bytes : List UInt8) : Record :=
  ⟨layout.kind, layout.version, entriesOf layout.pointerWidth endian layout.fields bytes⟩

variable {layout : ResolvedLayout} (data : ByteArray) (endian : Endian) (offset : Nat)

theorem readAt_eq_readSlice (layout : ResolvedLayout) (data : ByteArray) (endian : Endian)
    (offset : Nat) : layout.readAt data endian offset =
      Bytes.readSlice data layout.size (layout.recordOf endian) offset := by
  by_cases h_inside : offset + layout.size ≤ data.size
  · have h_length : ¬ ((data.data.toList.drop offset).take layout.size).length < layout.size :=
      Nat.not_lt_of_le (Nat.le_of_eq (Bytes.length_inside h_inside).symm)
    rw [Bytes.readSlice_of_inside h_inside, readAt, Bytes.slice?_eq_some h_inside]
    exact if_neg h_length
  · rw [Bytes.readSlice_of_outside h_inside, readAt, Bytes.slice?, Bytes.part?, if_neg h_inside]
    rfl

theorem readArray_eq_readSlice (h : layout.size ≠ 0) (count : Nat) :
    layout.readArray data endian offset count =
      Bytes.readSlice data (count * layout.size)
        (fun bytes => (Bytes.chunks layout.size count bytes).map (layout.recordOf endian))
        offset := by
  by_cases h_inside : offset + count * layout.size ≤ data.size
  · rw [Bytes.readSlice_of_inside h_inside, readArray, Bytes.slice?_eq_some h_inside]
    refine (if_neg h).trans (mapM_eq_ok_map fun piece h_piece => ?_)
    have h_length : count * layout.size ≤
        ((data.data.toList.drop offset).take (count * layout.size)).length :=
      Nat.le_of_eq (Bytes.length_inside h_inside).symm
    have h_piece := Bytes.length_of_mem_chunks h_length h_piece
    exact if_neg (Nat.not_lt_of_le (Nat.le_of_eq h_piece.symm))
  · rw [Bytes.readSlice_of_outside h_inside, readArray, Bytes.slice?, Bytes.part?, if_neg h_inside]
    rfl

/-- **Arrays of structures**, of any layout with a field. -/
theorem readArray_eq_mapM (h : layout.size ≠ 0) {count : Nat} (h_count : count ≠ 0) :
    layout.readArray data endian offset count =
      (List.range count).mapM fun k => layout.readAt data endian (offset + k * layout.size) := by
  rw [readArray_eq_readSlice data endian offset h, Bytes.readSlice_chunks _ _ _ _ h_count]
  simp only [readAt_eq_readSlice]

/-- Room for all structures is all that an array needs. -/
theorem exists_readArray_iff (layout : ResolvedLayout) {count : Nat} :
    (∃ records, layout.readArray data endian offset count = .ok records) ↔
      offset + count * layout.size ≤ data.size := by
  by_cases h : layout.size = 0
  · -- there are no bytes, but the offset has to be one of the data
    unfold readArray Bytes.slice? Bytes.part?
    split
    next h_slice =>
      refine iff_of_false (fun ⟨_, h_ok⟩ => by cases h_ok) fun h_inside => ?_
      rw [if_pos h_inside] at h_slice
      cases h_slice
    next bytes h_slice =>
      rw [if_pos h]
      exact iff_of_true ⟨_, rfl⟩ (Bytes.le_size_of_slice? h_slice)
  · rw [readArray_eq_readSlice data endian offset h]
    exact Bytes.exists_readSlice_iff

end ResolvedLayout

/-- Every kind of structure has a field in every version. -/
theorem RecordKind.permanent_ne_nil (kind : RecordKind) : kind.permanent ≠ [] := by
  cases kind <;> decide

theorem RecordKind.size_ne_zero {kind : RecordKind} {pair : VersionPair} {width : PointerWidth}
    {layout : ResolvedLayout} (h : kind.resolve pair width = .ok layout) : layout.size ≠ 0 := by
  obtain ⟨-, rfl⟩ := resolve_eq_ok_iff.mp h
  refine Nat.ne_of_gt (ResolvedLayout.totalWidth_pos _ fun h_nil => ?_)
  obtain ⟨field, h_field⟩ := List.exists_mem_of_ne_nil _ kind.permanent_ne_nil
  have h_present := mem_present_of_permanent h_field pair
  rw [show (Layout.of kind).present pair = [] from h_nil] at h_present
  exact absurd h_present List.not_mem_nil

/-! ### Pointers and inline arrays -/

namespace Image

variable (image : Image)

theorem pointer_eq_readSlice (offset : Nat) :
    image.pointer offset =
      Bytes.readSlice image.data image.pointerWidth.bytes image.endian.decode offset := by
  unfold pointer readBytes Bytes.readSlice
  cases Bytes.slice? image.data offset image.pointerWidth.bytes <;> rfl

/-- The pointers of an array that an address space can hold, read one after the other. -/
theorem pointers_eq_mapM {address count : Nat} (h_count : count ≠ 0)
    (h_total : count * image.pointerWidth.bytes < addressLimit) :
    image.pointers address count = image.offsetOf address >>= fun offset =>
      (List.range count).mapM fun k => image.pointer (offset + k * image.pointerWidth.bytes) := by
  unfold pointers
  dsimp only
  rw [if_neg h_count, if_neg (Nat.not_le_of_lt h_total)]
  refine bind_congr fun offset => ?_
  simp only [pointer_eq_readSlice]
  rw [← Bytes.readSlice_chunks _ _ _ _ h_count]
  unfold readBytes Bytes.readSlice
  cases Bytes.slice? image.data offset (count * image.pointerWidth.bytes) <;> rfl

/-- **Pointer arrays.** An array of pointers is read exactly if its address is mapped and each of
its pointers can be read, and gives the same. -/
theorem toOption_pointers {address count : Nat} (h_size : image.data.size < addressLimit)
    (h_count : count ≠ 0) :
    (image.pointers address count).toOption = (image.offsetOf address >>= fun offset =>
      (List.range count).mapM fun k =>
        image.pointer (offset + k * image.pointerWidth.bytes)).toOption := by
  by_cases h_total : count * image.pointerWidth.bytes < addressLimit
  · rw [image.pointers_eq_mapM h_count h_total]
  · -- an array that is too long for any address space is too long for the file
    have h_pointers : image.pointers address count = .error .outOfBounds := by
      unfold pointers
      dsimp only
      rw [if_neg h_count, if_pos (Nat.le_of_not_lt h_total)]
      rfl
    rw [h_pointers]
    cases image.offsetOf address with
    | error e => rfl
    | ok offset =>
      simp only [pointer_eq_readSlice]
      show _ = Except.toOption ((List.range count).mapM _)
      rw [← Bytes.readSlice_chunks _ _ _ _ h_count, Bytes.readSlice_of_outside (by omega)]

/-- **Inline arrays.** The address is looked up once, and the structures are read one after the
other from there on. -/
theorem records_eq_mapM {layout : ResolvedLayout} (h : layout.size ≠ 0) {address count : Nat}
    (h_count : count ≠ 0) :
    image.records layout address count = image.offsetOf address >>= fun offset =>
      (List.range count).mapM fun k =>
        layout.readAt image.data image.endian (offset + k * layout.size) := by
  unfold records
  rw [if_neg h_count]
  exact bind_congr fun offset => ResolvedLayout.readArray_eq_mapM _ _ offset h h_count

end Image

namespace Registration

/-- The entries of an inline array are what the structures from its address on convert to, read one
after the other. -/
def ListsInline {α : Type} (image : Image) (layout : ResolvedLayout) (array : NativeArray)
    (ofRecord : Record → Except Error α) (entries : Array α) : Prop :=
  entries.size = array.count ∧ (array.count ≠ 0 →
    ∃ offset, image.offsetOf array.address = .ok offset ∧
      ((List.range array.count).mapM fun k =>
        layout.readAt image.data image.endian (offset + k * layout.size) >>= ofRecord) =
          .ok entries.toList)

theorem listsInline_of_readInline {α : Type} {image : Image} {layout : ResolvedLayout}
    {array : NativeArray} {ofRecord : Record → Except Error α} {entries : Array α}
    (h_size : layout.size ≠ 0) (h : readInline image layout array ofRecord = .ok entries) :
    ListsInline image layout array ofRecord entries := by
  obtain ⟨records, h_records, h⟩ := except_bind_eq_ok_iff.mp h
  obtain ⟨found, h_found, h⟩ := except_bind_eq_ok_iff.mp h
  cases h
  by_cases h_count : array.count = 0
  · rw [Image.records, if_pos h_count] at h_records
    cases h_records
    cases h_found
    exact ⟨h_count.symm, fun h_some => absurd h_count h_some⟩
  · rw [image.records_eq_mapM h_size h_count] at h_records
    obtain ⟨offset, h_offset, h_each⟩ := except_bind_eq_ok_iff.mp h_records
    have h_mapM := mapM_bind_eq_ok h_each h_found
    refine ⟨?_, fun _ => ⟨offset, h_offset, h_mapM⟩⟩
    have h_length := (forall₂_of_mapM_eq_ok h_mapM).length_eq
    rw [List.length_range] at h_length
    exact h_length.symm

/-- The two inline arrays of the registration tables. -/
theorem listsInline_of_read {source : RegistrationSource} {pair : VersionPair}
    {tables : Registration} (h : Registration.read source pair = .ok tables) :
    (∃ layout, RecordKind.methodSpec.resolve pair source.image.pointerWidth = .ok layout ∧
      ListsInline source.image layout tables.metadata.methodSpecs MethodSpec.ofRecord
        tables.methodSpecs) ∧
    ∃ layout, RecordKind.genericMethodFunctions.resolve pair source.image.pointerWidth =
        .ok layout ∧
      ListsInline source.image layout tables.metadata.genericMethodTable GenericMethod.ofRecord
        tables.genericMethods := by
  -- the roots, the layouts, the descriptors and the instantiations
  iterate 14 obtain ⟨_, -, h⟩ := except_bind_eq_ok_iff.mp h
  obtain ⟨specLayout, h_specLayout, h⟩ := except_bind_eq_ok_iff.mp h
  obtain ⟨specs, h_specs, h⟩ := except_bind_eq_ok_iff.mp h
  obtain ⟨methodLayout, h_methodLayout, h⟩ := except_bind_eq_ok_iff.mp h
  obtain ⟨methods, h_methods, h⟩ := except_bind_eq_ok_iff.mp h
  -- compiled code
  iterate 2 obtain ⟨_, -, h⟩ := except_bind_eq_ok_iff.mp h
  cases h
  exact ⟨⟨specLayout, h_specLayout,
      listsInline_of_readInline (RecordKind.size_ne_zero h_specLayout) h_specs⟩,
    methodLayout, h_methodLayout,
      listsInline_of_readInline (RecordKind.size_ne_zero h_methodLayout) h_methods⟩

end Registration

/-! ### Sections -/

theorem IntType.interpret_i32 (word : Nat) : IntType.i32.interpret word = asInt32 word :=
  if_pos rfl

section Sections

variable {data : ByteArray} {place : Section} (id : SectionId)
  (h_inside : place.offset + place.size ≤ data.size)

include h_inside

/-- **Tables.** A section inside the data is read as many rows as fit into it whole, one after the
other. -/
theorem exists_readTable {α : Type} [Row α] [LawfulRow α] {pair : VersionPair}
    (h : pair.isSupported = true) {layout : ResolvedLayout}
    (h_layout : (Row.kind α).resolve pair .bits32 = .ok layout) : ∃ rows : List α,
      readTable α data id (some place) pair = .ok rows ∧
        rows.length = place.size / layout.size ∧
        ((List.range (place.size / layout.size)).mapM fun k =>
          layout.readAt data .little (place.offset + k * layout.size) >>= Row.ofRecord) =
            .ok rows := by
  let count := place.size / layout.size
  have h_size := RecordKind.size_ne_zero h_layout
  have h_room : place.offset + count * layout.size ≤ data.size :=
    Nat.le_trans (Nat.add_le_add_left (Nat.div_mul_le_self _ _) _) h_inside
  obtain ⟨records, h_records⟩ :=
    (layout.exists_readArray_iff data .little place.offset).mpr h_room
  have h_rows := readTable_eq (α := α) h id h_inside
  have h_read := h_rows
  unfold readTable at h_read
  rw [h_layout] at h_read
  change (if layout.size = 0 then _ else _) = _ at h_read
  rw [if_neg h_size, h_records] at h_read
  have h_each : ((List.range count).mapM fun k =>
      layout.readAt data .little (place.offset + k * layout.size)) = .ok records := by
    by_cases h_count : count = 0
    · rw [h_count, ResolvedLayout.readArray_eq_readSlice _ _ _ h_size,
        Bytes.readSlice_of_inside (h_count ▸ h_room)] at h_records
      rw [h_count]
      exact h_records
    · rwa [← ResolvedLayout.readArray_eq_mapM data .little place.offset h_size h_count]
  have h_mapM := mapM_bind_eq_ok h_each h_read
  refine ⟨_, h_rows, ?_, h_mapM⟩
  have h_length := (forall₂_of_mapM_eq_ok h_mapM).length_eq
  rw [List.length_range] at h_length
  exact h_length.symm

/-- **Indices.** A section inside the data is read as many words as fit into it whole. -/
theorem exists_readIndices : ∃ indices,
    readIndices data id (some place) = .ok indices ∧ indices.length = place.size / 4 ∧
      ((List.range (place.size / 4)).mapM fun k =>
        Bytes.readInt data .little .i32 (place.offset + k * 4)) = .ok indices := by
  refine ⟨_, readIndices_eq id h_inside, ?_, ?_⟩
  · rw [indicesOf, List.length_map, Bytes.length_chunks, Section.length_bytesIn h_inside]
  · rw [indicesOf, Bytes.chunks_eq_map, List.map_map, Section.length_bytesIn h_inside]
    refine mapM_eq_ok_map fun k h_k => ?_
    have h_word : place.offset + k * 4 + 4 ≤ data.size := by
      have h_k := List.mem_range.mp h_k
      omega
    have h_piece : ((place.bytesIn data).drop (k * 4)).take 4 =
        (data.data.toList.drop (place.offset + k * 4)).take 4 := by
      have h_k := List.mem_range.mp h_k
      rw [Section.bytesIn, List.drop_take, List.take_take, List.drop_drop,
        Nat.min_eq_left (by omega)]
    have h_read : Bytes.readUInt data .little IntType.i32.width (place.offset + k * 4) =
        .ok (Endian.little.decode ((data.data.toList.drop (place.offset + k * 4)).take 4)) := by
      unfold Bytes.readUInt Bytes.word?
      rw [show IntType.i32.width = 4 from rfl, if_pos (by decide), Bytes.slice?_eq_some h_word]
      rfl
    rw [Function.comp_apply, h_piece, Bytes.readInt, h_read]
    exact congrArg Except.ok (IntType.interpret_i32 _)

end Sections

/-! ### The result -/

/-- **Bulk reads agree with single reads.**

* An array of structures is read exactly if each of its structures lies inside the data, and then it
  has the structures that are read one after the other; all of their places are numbers below
  `addressLimit`. Every declared layout has a size.
* An array of pointers is read exactly if its address is mapped and each of its pointers can be
  read, and gives the same pointers.
* The inline arrays of the registration tables have the structures that are read one after the
  other.
* A section inside the data is read as many rows, or indices, as fit into it whole, and these are
  what is read from their places.

No file has as many bytes as there are addresses; where that matters it is assumed. -/
theorem bulk_reads_agree :
    (∀ (layout : ResolvedLayout) data endian offset count, count ≠ 0 →
      ((∃ records, layout.readArray data endian offset count = .ok records) ↔
        ∀ k < count, offset + k * layout.size + layout.size ≤ data.size) ∧
      (layout.size ≠ 0 → layout.readArray data endian offset count =
        (List.range count).mapM fun k =>
          layout.readAt data endian (offset + k * layout.size)) ∧
      ((∃ records, layout.readArray data endian offset count = .ok records) →
        data.size < addressLimit → ∀ k ≤ count, offset + k * layout.size < addressLimit)) ∧
    (∀ (kind : RecordKind) pair width layout,
      kind.resolve pair width = .ok layout → layout.size ≠ 0) ∧
    (∀ (image : Image) address count, image.data.size < addressLimit → count ≠ 0 →
      (image.pointers address count).toOption = (image.offsetOf address >>= fun offset =>
        (List.range count).mapM fun k =>
          image.pointer (offset + k * image.pointerWidth.bytes)).toOption) ∧
    (∀ source pair tables, Registration.read source pair = .ok tables →
      (∃ layout, RecordKind.methodSpec.resolve pair source.image.pointerWidth = .ok layout ∧
        Registration.ListsInline source.image layout tables.metadata.methodSpecs
          MethodSpec.ofRecord tables.methodSpecs) ∧
      ∃ layout, RecordKind.genericMethodFunctions.resolve pair source.image.pointerWidth =
          .ok layout ∧
        Registration.ListsInline source.image layout tables.metadata.genericMethodTable
          GenericMethod.ofRecord tables.genericMethods) ∧
    ∀ data id (place : Section), place.offset + place.size ≤ data.size →
      (∃ indices, readIndices data id (some place) = .ok indices ∧
        indices.length = place.size / 4 ∧
        ((List.range (place.size / 4)).mapM fun k =>
          Bytes.readInt data .little .i32 (place.offset + k * 4)) = .ok indices) ∧
      ∀ (α : Type) [Row α] [LawfulRow α] pair layout, pair.isSupported = true →
        (Row.kind α).resolve pair .bits32 = .ok layout → ∃ rows : List α,
          readTable α data id (some place) pair = .ok rows ∧
            rows.length = place.size / layout.size ∧
            ((List.range (place.size / layout.size)).mapM fun k =>
              layout.readAt data .little (place.offset + k * layout.size) >>= Row.ofRecord) =
                .ok rows := by
  refine ⟨fun layout data endian offset count h_count => ⟨?_, fun h_size => ?_, ?_⟩,
    fun kind pair width layout => RecordKind.size_ne_zero,
    fun image address count h_size h_count => image.toOption_pointers h_size h_count,
    fun source pair tables => Registration.listsInline_of_read,
    fun data id place h_inside => ⟨exists_readIndices id h_inside,
      fun α _ _ pair layout h_pair h_layout => exists_readTable id h_inside h_pair h_layout⟩⟩
  · rw [layout.exists_readArray_iff data endian offset]
    exact Bytes.inside_iff h_count
  · exact ResolvedLayout.readArray_eq_mapM data endian offset h_size h_count
  · intro h_records h_limit k h_k
    have h_inside := (layout.exists_readArray_iff data endian offset).mp h_records
    calc offset + k * layout.size
      _ ≤ offset + count * layout.size :=
        Nat.add_le_add_left (Nat.mul_le_mul_right layout.size h_k) offset
      _ ≤ data.size := h_inside
      _ < addressLimit := h_limit

/-- An image whose bytes count up from zero. The first four of them have no address. -/
def Image.counting : Image where
  format := .flat
  data := ⟨((List.range 22).map UInt8.ofNat).toArray⟩
  segments := [⟨0x1000, 4, 18⟩]
  pointerWidth := .bits32
  endian := .little

/-- An image with two roots, two methods with their generic arguments at 0x1080, and the code of one
instantiated method. -/
def RegistrationSource.inlined : RegistrationSource :=
  let roots := List.replicate 16 0 ++ [0, 0, 0, 0, 1, 0x1098, 0, 0, 2, 0x1080] ++ List.replicate 6 0
  let specs := [7, 0, 1, 8, 2, 3]
  let functions := [1, 5, 6, 0]
  let bytes := (roots ++ specs ++ functions).flatMap (Endian.little.encode 4)
  ⟨⟨.flat, ⟨bytes.toArray⟩, [⟨0x1000, 0, 168⟩], .bits32, .little⟩, 0x1000, 0x1040⟩

/-- Two structures, two pointers and two indices of the same bytes, and the inline arrays of an
image with two methods. In the section of ten bytes there is no room for a third index. -/
theorem bulk_reads_agree_counting :
    (∃ layout, RecordKind.fieldRef.resolve (.uniform ⟨29, 0⟩) .bits32 = .ok layout ∧
      layout.size = 8 ∧ (∃ records,
        layout.readArray Image.counting.data .little 4 2 = .ok records) ∧
      layout.readArray Image.counting.data .little 4 2 = (List.range 2).mapM fun k =>
        layout.readAt Image.counting.data .little (4 + k * layout.size)) ∧
    (Image.counting.data.size < addressLimit ∧
      (Image.counting.pointers 0x1000 2).toOption = some [0x07060504, 0x0b0a0908]) ∧
    (∃ (tables : Registration) (layout : ResolvedLayout) (offset : Nat),
      Registration.read .inlined (.uniform ⟨29, 0⟩) = .ok tables ∧
        tables.methodSpecs = #[⟨7, 0, 1⟩, ⟨8, 2, 3⟩] ∧ tables.genericMethods.size = 1 ∧
        RegistrationSource.inlined.image.offsetOf 0x1080 = .ok offset ∧
        ((List.range 2).mapM fun k =>
          layout.readAt RegistrationSource.inlined.image.data .little (offset + k * layout.size) >>=
            MethodSpec.ofRecord) = .ok [⟨7, 0, 1⟩, ⟨8, 2, 3⟩]) ∧
    ∃ indices, readIndices Image.counting.data .nestedTypes (some ⟨4, 10⟩) = .ok indices ∧
      indices.length = 2 := by
  obtain ⟨h_structures, h_sizes, h_pointers, h_inline, h_sections⟩ := bulk_reads_agree
  have h_limit : Image.counting.data.size < addressLimit := by decide
  refine ⟨?_, ⟨h_limit, ?_⟩, ?_, ?_⟩
  · let layout : ResolvedLayout :=
      ⟨.fieldRef, ⟨29, 0⟩, .bits32, (Layout.of .fieldRef).present (.uniform ⟨29, 0⟩)⟩
    have h_resolve : RecordKind.fieldRef.resolve (.uniform ⟨29, 0⟩) .bits32 = .ok layout :=
      RecordKind.resolve_eq_ok_iff.mpr ⟨by decide, rfl⟩
    obtain ⟨h_iff, h_each, -⟩ :=
      h_structures layout Image.counting.data .little 4 2 (by decide)
    exact ⟨layout, h_resolve, by decide, h_iff.mpr (by decide),
      h_each (h_sizes _ _ _ _ h_resolve)⟩
  · rw [h_pointers Image.counting 0x1000 2 h_limit (by decide)]
    decide
  · have h_shown : (Registration.read .inlined (.uniform ⟨29, 0⟩)).toOption.map (fun tables =>
        (tables.metadata.methodSpecs, tables.methodSpecs, tables.genericMethods.size)) =
        some (⟨2, 0x1080⟩, #[⟨7, 0, 1⟩, ⟨8, 2, 3⟩], 1) := by
      decide +kernel
    obtain ⟨tables, h_read, h_shown⟩ := Option.map_eq_some_iff.mp h_shown
    rw [toOption_eq_some_iff] at h_read
    simp only [Prod.mk.injEq] at h_shown
    obtain ⟨h_array, h_specs, h_methods⟩ := h_shown
    obtain ⟨⟨layout, -, -, h_each⟩, -⟩ := h_inline _ _ _ h_read
    rw [h_array, h_specs] at h_each
    obtain ⟨offset, h_offset, h_rows⟩ := h_each (by decide)
    exact ⟨tables, layout, offset, h_read, h_specs, h_methods, h_offset, h_rows⟩
  · obtain ⟨⟨indices, h_indices, h_length, -⟩, -⟩ :=
      h_sections Image.counting.data .nestedTypes ⟨4, 10⟩ (by decide)
    exact ⟨indices, h_indices, h_length⟩

end GlobalMetadata
