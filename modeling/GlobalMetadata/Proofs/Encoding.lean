import GlobalMetadata.Proofs.Decoding
import Mathlib.Algebra.Group.Int.Defs
import Mathlib.Algebra.Group.Nat.Defs
import Mathlib.Data.List.Basic

/-!
# Writing structures

The inverse of reading: a structure with given values is written field by field, in the order of its
layout. Reading what was written gives the record of the values, as long as every value fits its
field (`ResolvedLayout.read_encode`), and many structures that are written one after the other are
cut apart again (`Bytes.chunks_flatMap`).

Values are given for all names at once, as a function. Only those of the fields that the layout has
are written.
-/

namespace GlobalMetadata

/-! ### Integers -/

namespace Endian

theorem decodeLittle_encodeLittle {width n : Nat} (h : n < 256 ^ width) :
    decodeLittle (encodeLittle width n) = n := by
  induction width generalizing n with
  | zero => exact (Nat.lt_one_iff.mp h).symm
  | succ width ih =>
    have h_high : n / 256 < 256 ^ width := Nat.div_lt_of_lt_mul (by rwa [Nat.pow_succ'] at h)
    rw [encodeLittle, decodeLittle, ih h_high, UInt8.toNat_ofNat']
    exact Nat.mod_add_div n 256

/-- **Integers.** A number that fits comes back, in either byte order. -/
theorem decode_encode (endian : Endian) {width n : Nat} (h : n < 256 ^ width) :
    endian.decode (endian.encode width n) = n := by
  cases endian with
  | little => exact decodeLittle_encodeLittle h
  | big =>
    rw [encode, decode, List.reverse_reverse]
    exact decodeLittle_encodeLittle h

end Endian

/-! ### Structures -/

namespace ResolvedLayout

variable (layout : ResolvedLayout) (endian : Endian) (values : Field → Nat)

/-- The bytes of a structure with given values. -/
def encode : List UInt8 :=
  layout.fields.flatMap fun spec =>
    endian.encode (spec.width.bytes layout.pointerWidth) (values spec.field)

/-- The record that holds given values. -/
def record : Record :=
  ⟨layout.kind, layout.version, layout.fields.map fun spec => (spec.field, values spec.field)⟩

/-- Every value fits into its field. -/
def Fits : Prop :=
  ∀ spec ∈ layout.fields, values spec.field < 256 ^ spec.width.bytes layout.pointerWidth

variable {layout values}

theorem length_flatMap_encode (p : PointerWidth) (endian : Endian) (values : Field → Nat)
    (specs : List FieldSpec) :
    (specs.flatMap fun spec => endian.encode (spec.width.bytes p) (values spec.field)).length =
      totalWidth p specs := by
  induction specs with
  | nil => rfl
  | cons spec specs ih =>
    rw [List.flatMap_cons, List.length_append, Endian.length_encode, ih, totalWidth]

@[simp] theorem length_encode : (layout.encode endian values).length = layout.size :=
  length_flatMap_encode ..

theorem entriesOf_flatMap_encode {p : PointerWidth} {specs : List FieldSpec} (endian : Endian)
    {values : Field → Nat} (h : ∀ spec ∈ specs, values spec.field < 256 ^ spec.width.bytes p)
    (rest : List UInt8) :
    entriesOf p endian specs
        ((specs.flatMap fun spec => endian.encode (spec.width.bytes p) (values spec.field)) ++
          rest) =
      specs.map fun spec => (spec.field, values spec.field) := by
  induction specs with
  | nil => rfl
  | cons spec specs ih =>
    have h_length := Endian.length_encode endian (spec.width.bytes p) (values spec.field)
    rw [List.flatMap_cons, List.append_assoc, entriesOf, List.map_cons,
      List.take_left' h_length, List.drop_left' h_length,
      Endian.decode_encode endian (h spec List.mem_cons_self),
      ih fun spec' h_spec' => h spec' (List.mem_cons_of_mem spec h_spec')]

/-- **Structures.** Reading what was written gives the values, whatever stands behind them. -/
theorem read_encode (h : layout.Fits values) (rest : List UInt8) :
    layout.read endian (layout.encode endian values ++ rest) = .ok (layout.record values) := by
  have h_long : ¬ (layout.encode endian values ++ rest).length < layout.size := by
    rw [List.length_append, length_encode]
    exact Nat.not_lt.mpr (Nat.le_add_right _ _)
  rw [read, if_neg h_long, encode, entriesOf_flatMap_encode endian h rest, record]

/-- The record has the given values, each in a field of the layout. -/
theorem get?_record (layout : ResolvedLayout) (values : Field → Nat) (field : Field) :
    (layout.record values).get? field =
      if layout.fields.any (·.field = field) then some (values field) else none := by
  have h_get : (layout.record values).get? field =
      (layout.fields.find? fun spec => spec.field = field).map fun spec => values spec.field := by
    rw [Record.get?, record, List.find?_map, Option.map_map]
    rfl
  rw [h_get]
  -- fields of one name have one value, so it does not matter which of them is found
  cases h_find : layout.fields.find? fun spec => spec.field = field with
  | some spec =>
    have h_name : spec.field = field := by simpa using List.find?_some h_find
    rw [if_pos (List.any_eq_true.mpr ⟨spec, List.mem_of_find?_eq_some h_find, by simpa⟩),
      Option.map_some, h_name]
  | none =>
    rw [if_neg fun h_any => ?_, Option.map_none]
    obtain ⟨spec, h_spec, h_name⟩ := List.any_eq_true.mp h_any
    exact List.find?_eq_none.mp h_find spec h_spec h_name

end ResolvedLayout

/-! ### Many structures -/

/-- Pieces of one size that were put together are cut apart again. -/
theorem Bytes.chunks_flatMap {α : Type} {size : Nat} {write : α → List UInt8}
    (as : List α) (h : ∀ a ∈ as, (write a).length = size) :
    chunks size as.length (as.flatMap write) = as.map write := by
  induction as with
  | nil => rfl
  | cons a as ih =>
    have h_a := h a List.mem_cons_self
    rw [List.flatMap_cons, List.length_cons, chunks, List.take_left' h_a, List.drop_left' h_a,
      ih fun a' h_a' => h a' (List.mem_cons_of_mem a h_a'), List.map_cons]

/-- Pieces of one size take so many bytes together. -/
theorem length_flatMap_of_length_eq {α : Type} {size : Nat} {write : α → List UInt8}
    (as : List α) (h : ∀ a ∈ as, (write a).length = size) :
    (as.flatMap write).length = as.length * size := by
  rw [List.length_flatMap, List.map_congr_left h, List.map_const', List.sum_replicate_nat]

/-! ### Rows and indices of a section -/

section Rows

variable {α : Type} [Row α] [LawfulRow α]

/-- **Tables.** The rows of written structures are those that their records convert to. -/
theorem mapM_ofRecord_eq_rowsOf (pair : VersionPair) {rows : List (Field → Nat)}
    (h : ∀ values ∈ rows, ((Row.kind α).blobLayout pair).Fits values) :
    let layout := (Row.kind α).blobLayout pair
    rows.mapM (fun values => (Row.ofRecord (layout.record values) : Except Error α)) =
      .ok (rowsOf α pair (rows.flatMap (layout.encode .little))) := by
  intro layout
  have h_length : (rows.flatMap (layout.encode .little)).length / layout.size = rows.length := by
    rw [length_flatMap_of_length_eq rows fun values _ => layout.length_encode .little]
    exact Nat.mul_div_cancel _ (size_blobLayout_pos α pair)
  have h_read (values : Field → Nat) (h_values : values ∈ rows) :
      layout.read .little (layout.encode .little values) = .ok (layout.record values) := by
    have h_read := layout.read_encode .little (h values h_values) []
    rwa [List.append_nil] at h_read
  have h_row (values : Field → Nat) (h_values : values ∈ rows) :
      ∃ row, (Row.ofRecord (layout.record values) : Except Error α) = .ok row := by
    have h_size : layout.size ≤ (layout.encode .little values).length :=
      Nat.le_of_eq (layout.length_encode _).symm
    obtain ⟨record, row, h_record, h_row, -⟩ := exists_row (α := α) pair h_size default
    rw [h_read values h_values] at h_record
    cases h_record
    exact ⟨row, h_row⟩
  rw [mapM_eq_ok h_row, rowsOf, h_length,
    Bytes.chunks_flatMap rows fun values _ => layout.length_encode .little, List.filterMap_map]
  congr 1
  refine List.filterMap_congr fun values h_values => ?_
  rw [Function.comp_apply, h_read values h_values]
  rfl

end Rows

/-- The word that stands for a signed number. -/
def wordOf (index : Int) : Nat :=
  (index % UInt32.size).toNat

theorem natCast_wordOf (index : Int) : (wordOf index : Int) = index % UInt32.size :=
  Int.toNat_of_nonneg (Int.emod_nonneg index (Int.natCast_ne_zero.mpr (by decide)))

theorem wordOf_lt (index : Int) : wordOf index < UInt32.size := by
  have h_lt : (wordOf index : Int) < UInt32.size := by
    rw [natCast_wordOf]
    exact Int.emod_lt_of_pos index (Int.natCast_pos.mpr (by decide))
  exact Int.ofNat_lt.mp h_lt

theorem asInt32_wordOf {index : Int} (h : -2 ^ 31 ≤ index ∧ index < 2 ^ 31) :
    asInt32 (wordOf index) = index := by
  have h_size : UInt32.size = 2 ^ 32 := rfl
  unfold asInt32
  rw [natCast_wordOf, Int.emod_bmod]
  exact Int.bmod_eq_of_le (by omega) (by omega)

/-- **Indices.** Written indices are read as the same signed numbers. -/
theorem indicesOf_flatMap {indices : List Int}
    (h : ∀ index ∈ indices, -2 ^ 31 ≤ index ∧ index < 2 ^ 31) :
    indicesOf (indices.flatMap fun index => Endian.little.encode 4 (wordOf index)) = indices := by
  have h_length (index : Int) (_ : index ∈ indices) :
      (Endian.little.encode 4 (wordOf index)).length = 4 := Endian.length_encode ..
  rw [indicesOf, length_flatMap_of_length_eq indices h_length, Nat.mul_div_cancel _ (by decide),
    Bytes.chunks_flatMap indices h_length, List.map_map]
  refine (List.map_congr_left fun index h_index => ?_).trans (List.map_id' indices)
  have h_word : wordOf index < 256 ^ 4 := wordOf_lt index
  rw [Function.comp_apply, Endian.decode_encode .little h_word]
  exact asInt32_wordOf (h index h_index)

end GlobalMetadata
