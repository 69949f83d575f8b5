import GlobalMetadata.Proofs.Encoding
import Mathlib.Data.List.Forall2

/-!
# Reading inverts writing

A structure is written field by field, without padding. `GlobalMetadata.Proofs.Encoding` shows that
reading gives back what was written; here it is shown that reading loses nothing either: written
again, the values of a record are the bytes that it was read from.

* An integer of any number of bytes is a bijection between bytes and numbers that fit
  (`Endian.encode_decode`, `Endian.decode_lt`).
* For consecutive fields of any widths this is an induction on the fields, where the bytes of the
  first field are split off (`ResolvedLayout.write_entriesOf`, `ResolvedLayout.entriesOf_write`).
* Reading a structure, from the start of some bytes or at an offset, therefore is one half of a
  bijection, and it fails exactly where there is no room (`reading_inverts_writing`).

Values are listed in stored order here, one for each field, so that nothing is asked of the names of
the fields.
-/

namespace GlobalMetadata

/-! ### Integers -/

namespace Endian

theorem encodeLittle_decodeLittle (bytes : List UInt8) :
    encodeLittle bytes.length (decodeLittle bytes) = bytes := by
  induction bytes with
  | nil => rfl
  | cons b rest ih =>
    have h_lt : b.toNat < 256 := b.toNat_lt
    have h_low : UInt8.ofNat (b.toNat + 256 * decodeLittle rest) = b := by
      refine UInt8.toNat_inj.mp ?_
      rw [UInt8.toNat_ofNat', Nat.add_mul_mod_self_left, Nat.mod_eq_of_lt h_lt]
    have h_high : (b.toNat + 256 * decodeLittle rest) / 256 = decodeLittle rest := by omega
    rw [List.length_cons, decodeLittle, encodeLittle, h_low, h_high, ih]

theorem decodeLittle_lt (bytes : List UInt8) : decodeLittle bytes < 256 ^ bytes.length := by
  induction bytes with
  | nil => exact Nat.one_pos
  | cons b rest ih =>
    have h_lt : b.toNat < 256 := b.toNat_lt
    rw [decodeLittle, List.length_cons, Nat.pow_succ']
    omega

variable (endian : Endian) (bytes : List UInt8)

/-- **Bytes.** A run of bytes comes back from the number that it stands for, in either byte
order. -/
theorem encode_decode : endian.encode bytes.length (endian.decode bytes) = bytes := by
  cases endian with
  | little => exact encodeLittle_decodeLittle bytes
  | big =>
    have h_reverse := encodeLittle_decodeLittle bytes.reverse
    rw [List.length_reverse] at h_reverse
    rw [encode, decode, h_reverse, List.reverse_reverse]

theorem decode_lt : endian.decode bytes < 256 ^ bytes.length := by
  cases endian with
  | little => exact decodeLittle_lt bytes
  | big =>
    rw [← List.length_reverse]
    exact decodeLittle_lt bytes.reverse

end Endian

/-! ### Consecutive fields -/

/-- The values of a record, in stored order. -/
def Record.values (record : Record) : List Nat :=
  record.entries.map (·.2)

theorem FieldWidth.bytes_le (p : PointerWidth) (width : FieldWidth) : width.bytes p ≤ 8 := by
  cases width <;> cases p <;> decide

namespace ResolvedLayout

section Fields

variable (p : PointerWidth) (endian : Endian)

/-- The bytes of consecutive fields with one value for each. -/
def writeFields : List FieldSpec → List Nat → List UInt8
  | spec :: specs, value :: values =>
    endian.encode (spec.width.bytes p) value ++ writeFields specs values
  | _, _ => []

/-- There is one value for each of the fields, and it fits. -/
def FitFields : List FieldSpec → List Nat → Prop :=
  List.Forall₂ fun spec value => value < 256 ^ spec.width.bytes p

variable {p} {specs : List FieldSpec} {bytes : List UInt8} {values : List Nat}

/-- **Reading loses nothing.** The values of consecutive fields, written again, are the bytes that
they were read from. -/
theorem write_entriesOf (h : totalWidth p specs ≤ bytes.length) :
    writeFields p endian specs ((entriesOf p endian specs bytes).map (·.2)) =
      bytes.take (totalWidth p specs) := by
  induction specs generalizing bytes with
  | nil => rfl
  | cons spec specs ih =>
    let width := spec.width.bytes p
    rw [totalWidth] at h
    have h_first : (bytes.take width).length = width :=
      List.length_take_of_le (Nat.le_of_add_right_le h)
    have h_rest : totalWidth p specs ≤ (bytes.drop width).length := by
      rw [List.length_drop]
      exact Nat.le_sub_of_add_le' h
    calc writeFields p endian (spec :: specs)
          ((entriesOf p endian (spec :: specs) bytes).map (·.2))
      _ = endian.encode width (endian.decode (bytes.take width)) ++
            writeFields p endian specs
              ((entriesOf p endian specs (bytes.drop width)).map (·.2)) := rfl
      _ = bytes.take width ++ (bytes.drop width).take (totalWidth p specs) := by
        have h_back := endian.encode_decode (bytes.take width)
        rw [h_first] at h_back
        rw [h_back, ih h_rest]
      _ = bytes.take (totalWidth p (spec :: specs)) := List.take_add.symm

/-- Whatever is read fits. -/
theorem fit_entriesOf (h : totalWidth p specs ≤ bytes.length) :
    FitFields p specs ((entriesOf p endian specs bytes).map (·.2)) := by
  induction specs generalizing bytes with
  | nil => exact .nil
  | cons spec specs ih =>
    rw [totalWidth] at h
    refine .cons ?_ (ih ?_)
    · have h_lt := endian.decode_lt (bytes.take (spec.width.bytes p))
      rwa [List.length_take_of_le (Nat.le_of_add_right_le h)] at h_lt
    · rw [List.length_drop]
      exact Nat.le_sub_of_add_le' h

/-- What fits, fits into eight bytes. -/
theorem lt_of_fitFields (h : FitFields p specs values) : ∀ n ∈ values, n < 2 ^ 64 := by
  induction h with
  | nil => exact fun n h_n => absurd h_n List.not_mem_nil
  | @cons spec _ _ _ h_value _ ih =>
    intro n h_n
    rcases List.mem_cons.mp h_n with rfl | h_n
    · calc n < 256 ^ spec.width.bytes p := h_value
        _ ≤ 256 ^ 8 := Nat.pow_le_pow_right (by decide) (spec.width.bytes_le p)
        _ = 2 ^ 64 := by decide
    · exact ih n h_n

theorem length_writeFields (h : values.length = specs.length) :
    (writeFields p endian specs values).length = totalWidth p specs := by
  induction specs generalizing values with
  | nil => rfl
  | cons spec specs ih =>
    obtain ⟨value, values, rfl⟩ := List.exists_of_length_succ values h
    rw [writeFields, List.length_append, Endian.length_encode, totalWidth,
      ih (Nat.succ.inj h)]

/-- **Writing loses nothing.** Values that fit are read back, whatever stands behind them. -/
theorem entriesOf_write (h : FitFields p specs values) (rest : List UInt8) :
    entriesOf p endian specs (writeFields p endian specs values ++ rest) =
      (specs.map (·.field)).zip values := by
  induction h with
  | nil => rfl
  | @cons spec value specs values h_value _ ih =>
    have h_length := Endian.length_encode endian (spec.width.bytes p) value
    rw [writeFields, List.append_assoc, entriesOf, List.take_left' h_length,
      List.drop_left' h_length, endian.decode_encode h_value, ih]
    rfl

end Fields

/-! ### Structures -/

variable (layout : ResolvedLayout) (endian : Endian)

/-- The bytes of a structure with one value for each of its fields. -/
def write (values : List Nat) : List UInt8 :=
  writeFields layout.pointerWidth endian layout.fields values

/-- There is one value for each field of the structure, and it fits. -/
def Admits (values : List Nat) : Prop :=
  FitFields layout.pointerWidth layout.fields values

/-- A record has the fields of the structure, in stored order, with values that are written as these
bytes. -/
structure Recovers (bytes : List UInt8) (record : Record) : Prop where
  fields_eq : record.fields = layout.fields.map (·.field)
  admitted : layout.Admits record.values
  written : layout.write endian record.values = bytes

/-- **The two directions.** Bytes with room for the structure are read, and the record recovers as
many of them as the structure has. Values that fit are read back from what they are written as.
Bytes without room are refused, and for no other reason. -/
structure Inverts : Prop where
  read : ∀ bytes, layout.size ≤ bytes.length → ∃ record,
    layout.read endian bytes = .ok record ∧
      layout.Recovers endian (bytes.take layout.size) record
  written : ∀ values, layout.Admits values → ∀ rest, ∃ record,
    layout.read endian (layout.write endian values ++ rest) = .ok record ∧
      record.fields = layout.fields.map (·.field) ∧ record.values = values
  short : ∀ bytes, bytes.length < layout.size → layout.read endian bytes = .error .outOfBounds

variable {layout}

theorem read_of_short {bytes : List UInt8} (h : bytes.length < layout.size) :
    layout.read endian bytes = .error .outOfBounds :=
  if_pos h

theorem exists_recovers {bytes : List UInt8} (h : layout.size ≤ bytes.length) :
    ∃ record, layout.read endian bytes = .ok record ∧
      layout.Recovers endian (bytes.take layout.size) record :=
  ⟨_, if_neg (Nat.not_lt.mpr h),
    { fields_eq := fields_entriesOf ..
      admitted := fit_entriesOf endian h
      written := write_entriesOf endian h }⟩

/-- Only bytes with room are read, so that every record that is read recovers them. -/
theorem recovers_of_read {endian : Endian} {bytes : List UInt8} {record : Record}
    (h : layout.read endian bytes = .ok record) :
    layout.Recovers endian (bytes.take layout.size) record := by
  have h_room : layout.size ≤ bytes.length := by
    by_contra h_short
    rw [read_of_short endian (Nat.not_le.mp h_short)] at h
    cases h
  obtain ⟨_, h_read, h_recovers⟩ := exists_recovers endian h_room
  rw [h] at h_read
  cases h_read
  exact h_recovers

/-- A field of a record that is read has at most 64 bits. -/
theorem get_lt_of_read {endian : Endian} {bytes : List UInt8} {record : Record}
    (h : layout.read endian bytes = .ok record) {field : Field} {n : Nat}
    (h_n : record.get field = .ok n) : n < 2 ^ 64 := by
  unfold Record.get at h_n
  split at h_n
  next value h_value =>
    cases h_n
    obtain ⟨entry, h_entry, rfl⟩ := Option.map_eq_some_iff.mp h_value
    exact lt_of_fitFields (recovers_of_read h).admitted _
      (List.mem_map_of_mem (List.mem_of_find?_eq_some h_entry))
  next => cases h_n

theorem length_write {values : List Nat} (h : layout.Admits values) :
    (layout.write endian values).length = layout.size :=
  length_writeFields endian h.length_eq.symm

theorem exists_read_write {values : List Nat} (h : layout.Admits values) (rest : List UInt8) :
    ∃ record, layout.read endian (layout.write endian values ++ rest) = .ok record ∧
      record.fields = layout.fields.map (·.field) ∧ record.values = values := by
  have h_room : layout.size ≤ (layout.write endian values ++ rest).length := by
    rw [List.length_append, length_write endian h]
    exact Nat.le_add_right _ _
  have h_lengths : (layout.fields.map (·.field)).length = values.length := by
    rw [List.length_map]
    exact h.length_eq
  refine ⟨_, if_neg (Nat.not_lt.mpr h_room), fields_entriesOf .., ?_⟩
  show (entriesOf layout.pointerWidth endian layout.fields (_ ++ rest)).map (·.2) = values
  rw [write, entriesOf_write endian h]
  exact List.map_snd_zip (Nat.le_of_eq h_lengths.symm)

/-- **Any layout** can be read and written, also when the widths of its fields are mixed and none of
them is aligned. -/
theorem inverts (layout : ResolvedLayout) (endian : Endian) : layout.Inverts endian where
  read _ h := exists_recovers endian h
  written _ h rest := exists_read_write endian h rest
  short _ h := read_of_short endian h

end ResolvedLayout

/-! ### Structures at an offset -/

theorem Bytes.length_inside {data : ByteArray} {offset length : Nat}
    (h : offset + length ≤ data.size) :
    ((data.data.toList.drop offset).take length).length = length :=
  @Section.length_bytesIn ⟨offset, length⟩ data h

/-- Reading the structure at an offset of the data comes to this: if all of it lies inside, a record
that recovers its bytes, together with their number, and an error otherwise. -/
def ResolvedLayout.ReadsAt (layout : ResolvedLayout) (endian : Endian) (data : ByteArray)
    (offset : Nat) (x : Except Error (Record × Nat)) : Prop :=
  if offset + layout.size ≤ data.size then
    ∃ record, x = .ok (record, layout.size) ∧
      layout.Recovers endian ((data.data.toList.drop offset).take layout.size) record
  else x = .error .outOfBounds

theorem ResolvedLayout.readsAt (layout : ResolvedLayout) (endian : Endian) (data : ByteArray)
    (offset : Nat) : layout.ReadsAt endian data offset
      ((·, layout.size) <$> layout.readAt data endian offset) := by
  unfold ReadsAt readAt
  split
  next h =>
    have h_length : layout.size ≤ ((data.data.toList.drop offset).take layout.size).length :=
      Nat.le_of_eq (Bytes.length_inside h).symm
    obtain ⟨record, h_record, h_recovers⟩ := exists_recovers endian h_length
    rw [List.take_take, Nat.min_self] at h_recovers
    rw [Bytes.slice?_eq_some h]
    dsimp only
    rw [h_record]
    exact ⟨record, rfl, h_recovers⟩
  next h =>
    rw [Bytes.slice?, Bytes.part?, if_neg h]
    rfl

/-- **Reading a structure inverts writing it.** For every kind of structure, supported pair of
versions, pointer width and byte order the layout has the fields that the kind has for the pair and
the size of the kind, and reading by it is inverse to writing by it. The readers of structures at an
offset, of the blob and of an image, succeed exactly where the whole structure lies inside the data,
report its size, and recover its bytes.

The first part says so for layouts of any fields, declared or not. -/
theorem reading_inverts_writing :
    (∀ (layout : ResolvedLayout) endian, layout.Inverts endian) ∧
    ∀ (kind : RecordKind) pair, pair.isSupported = true → ∃ fields,
      kind.present pair = .ok fields ∧
      (∀ width, ∃ layout, kind.resolve pair width = .ok layout ∧
        layout.pointerWidth = width ∧ layout.fields = fields ∧
        kind.size pair width = .ok layout.size ∧ ∀ endian, layout.Inverts endian) ∧
      (∀ data offset, ∃ layout, kind.resolve pair .bits32 = .ok layout ∧
        layout.ReadsAt .little data offset (readBlobRecord kind pair data offset)) ∧
      ∀ (image : Image) offset, ∃ layout, kind.resolve pair image.pointerWidth = .ok layout ∧
        layout.ReadsAt image.endian image.data offset
          (image.recordAtOffset kind pair offset) := by
  refine ⟨ResolvedLayout.inverts, fun kind pair h => ?_⟩
  have h_ensure := VersionPair.ensureSupported_eq_ok_iff.mpr h
  have h_resolve (width : PointerWidth) : kind.resolve pair width =
      .ok ⟨kind, pair.on kind.axis, width, (Layout.of kind).present pair⟩ :=
    RecordKind.resolve_eq_ok_iff.mpr ⟨h, rfl⟩
  refine ⟨(Layout.of kind).present pair, ?_, fun width => ?_, fun data offset => ?_,
    fun image offset => ?_⟩
  · unfold RecordKind.present
    rw [h_ensure]
    rfl
  · refine ⟨_, h_resolve width, rfl, rfl, ?_, ResolvedLayout.inverts _⟩
    unfold RecordKind.size
    rw [h_resolve width]
    rfl
  · refine ⟨_, h_resolve .bits32, ?_⟩
    unfold readBlobRecord
    rw [h_resolve .bits32]
    exact ResolvedLayout.readsAt _ .little data offset
  · refine ⟨_, h_resolve image.pointerWidth, ?_⟩
    unfold Image.recordAtOffset
    rw [h_resolve image.pointerWidth]
    exact ResolvedLayout.readsAt _ image.endian image.data offset

/-- The shape of an array has three single bytes between its addresses, so that the last two of them
are not aligned. -/
theorem reading_inverts_writing_arrayType :
    (VersionPair.uniform ⟨29, 0⟩).isSupported = true ∧ ∃ layout record,
      RecordKind.arrayType.resolve (.uniform ⟨29, 0⟩) .bits64 = .ok layout ∧ layout.size = 27 ∧
      layout.read .big (layout.write .big [0x1000, 2, 0, 0, 0x2000, 0x3000]) = .ok record ∧
      record.values = [0x1000, 2, 0, 0, 0x2000, 0x3000] := by
  have h_supported : (VersionPair.uniform ⟨29, 0⟩).isSupported = true := by decide
  obtain ⟨fields, -, h_layouts, -⟩ :=
    reading_inverts_writing.2 .arrayType (.uniform ⟨29, 0⟩) h_supported
  obtain ⟨layout, h_resolve, -, -, -, h_inverts⟩ := h_layouts .bits64
  obtain ⟨-, h_layout⟩ := RecordKind.resolve_eq_ok_iff.mp h_resolve
  have h_size : layout.size = 27 := by
    rw [h_layout]
    decide
  have h_admits : layout.Admits [0x1000, 2, 0, 0, 0x2000, 0x3000] := by
    rw [h_layout]
    unfold ResolvedLayout.Admits ResolvedLayout.FitFields
    decide
  obtain ⟨record, h_read, -, h_values⟩ := (h_inverts .big).written _ h_admits []
  rw [List.append_nil] at h_read
  exact ⟨h_supported, layout, record, h_resolve, h_size, h_read, h_values⟩

end GlobalMetadata
