import GlobalMetadata.Proofs.Reading
import GlobalMetadata.Proofs.RoundTrip

/-!
# Two axes that do not interfere

A pair of versions is handed through every reader, that of the blob and that of the image alike.
Still the metadata half decides about the blob alone, and the registration half about the image
alone. These are statements about two readings at once.

* **The blob.** Two readings of one blob for pairs with the same metadata half, next to whatever
  images, give the same tables, heaps and bytes: everything is put together from the header and
  the sections, and these are read through layouts that look at the metadata half
  (`Metadata.decode_congr`).
* **The image.** Two readings of one image for pairs with the same registration half go through the
  same steps (`Registration.read_congr`).

Both come down to `RecordKind.present_congr`: no structure declares a field by the other axis.
-/

namespace GlobalMetadata

variable {pair pair' : VersionPair}

/-! ### Layouts -/

namespace RecordKind

/-- Supported pairs that agree on the axis of a structure give it the same layout. -/
theorem resolve_congr {kind : RecordKind} (h_pair : pair.isSupported = true)
    (h_pair' : pair'.isSupported = true) (h : pair.on kind.axis = pair'.on kind.axis)
    (width : PointerWidth) : kind.resolve pair' width = kind.resolve pair width := by
  refine (resolve_eq_ok_iff.mpr ⟨h_pair', rfl⟩).trans ?_
  rw [← present_congr h, ← h]
  exact (resolve_eq_ok_iff.mpr ⟨h_pair, rfl⟩).symm

theorem blobLayout_congr {kind : RecordKind} (h_axis : kind.axis = .metadata)
    (h : pair.metadata = pair'.metadata) : kind.blobLayout pair' = kind.blobLayout pair := by
  have h_on : pair.on kind.axis = pair'.on kind.axis := by
    rw [h_axis]
    exact h
  rw [blobLayout, blobLayout, ← present_congr h_on, ← h_on]

end RecordKind

/-! ### The blob -/

/-- The header does not depend on the registration half. -/
theorem Header.read_eq_of_metadata_eq (h_pair : pair.isSupported = true)
    (h_pair' : pair'.isSupported = true) (h : pair.metadata = pair'.metadata) (data : ByteArray) :
    read data pair' = read data pair := by
  unfold read readBlobRecord
  have h_on : pair.on RecordKind.metadataHeader.axis = pair'.on RecordKind.metadataHeader.axis := h
  rw [RecordKind.resolve_congr h_pair h_pair' h_on]

/-- Nor do the rows of a table. -/
theorem rowsOf_eq_of_metadata_eq (α : Type) [Row α] [LawfulRow α]
    (h : pair.metadata = pair'.metadata) (bytes : List UInt8) :
    rowsOf α pair' bytes = rowsOf α pair bytes := by
  unfold rowsOf
  rw [RecordKind.blobLayout_congr LawfulRow.axis_eq h]

namespace Metadata

/-- **The blob**, read next to two images. What one decoding gives, the other one gives as well, as
soon as the tables of its own image can be read. -/
theorem decode_congr {data : ByteArray} {source source' : RegistrationSource}
    {metadata : Metadata} {registration : Registration} (h : pair.metadata = pair'.metadata)
    (h_decode : decode data source pair = .ok metadata) (h_pair' : pair'.isSupported = true)
    (h_registration : Registration.read source' pair' = .ok registration) :
    decode data source' pair' =
      .ok { metadata with pair := pair', registration := registration } := by
  obtain ⟨header, _, h_pair, h_header, h_checks, -, rfl⟩ := decode_eq_ok_iff.mp h_decode
  have h_header' := (Header.read_eq_of_metadata_eq h_pair h_pair' h data).trans h_header
  have h_rows (α : Type) [Row α] [LawfulRow α] (bytes : List UInt8) :
      rowsOf α pair' bytes = rowsOf α pair bytes :=
    rowsOf_eq_of_metadata_eq α h bytes
  refine decode_eq_ok_iff.mpr
    ⟨header, registration, h_pair', h_header', h_checks, h_registration, ?_⟩
  simp only [ofSections, h_rows]

end Metadata

/-! ### The image -/

namespace Registration

/-- **The image**, read for two pairs. The tables only remember which pair it was. -/
theorem read_congr (h_pair : pair.isSupported = true) (h_pair' : pair'.isSupported = true)
    (h : pair.registration = pair'.registration) (source : RegistrationSource) :
    read source pair' = (fun tables => { tables with pair := pair' }) <$> read source pair := by
  have h_layout (kind : RecordKind) (h_axis : kind.axis = .registration) (width : PointerWidth) :
      kind.resolve pair' width = kind.resolve pair width := by
    refine RecordKind.resolve_congr h_pair h_pair' ?_ width
    rw [h_axis]
    exact h
  have h_modules (image : Image) (array : Option NativeArray) :
      readModules image pair' array = readModules image pair array := by
    cases array with
    | none => rfl
    | some array =>
      unfold readModules
      rw [h_layout .codeGenModule rfl]
  unfold read
  simp only [h_layout .codeRegistration rfl, h_layout .metadataRegistration rfl,
    h_layout .typeDescriptor rfl, h_layout .genericClass rfl, h_layout .genericInst rfl,
    h_layout .arrayType rfl, h_layout .methodSpec rfl, h_layout .genericMethodFunctions rfl,
    h_modules, map_bind, map_pure]

/-- Which code belongs to a method does not depend on the metadata half. -/
theorem methodAddress_congr {tables : Registration}
    (h : tables.pair.registration = pair'.registration) :
    ({ tables with pair := pair' } : Registration).methodAddress = tables.methodAddress := by
  funext moduleName method
  unfold methodAddress
  rw [h]
  rfl

end Registration

/-! ### The result -/

/-- **The two axes do not interfere.** Two pairs with the same metadata half give the same tables,
heaps, literals and bytes of a blob whenever both decodings succeed, whatever the two images are;
only the registration tables and the pair itself may differ.

Two supported pairs with the same registration half give the same registration tables of an image,
or fail both. A method has the same compiled code in either case. -/
theorem axes_independent (pair pair' : VersionPair) :
    (pair.metadata = pair'.metadata → ∀ data source source' metadata metadata',
      Metadata.decode data source pair = .ok metadata →
      Metadata.decode data source' pair' = .ok metadata' →
        metadata' = { metadata with pair := pair', registration := metadata'.registration }) ∧
    (pair.isSupported = true → pair'.isSupported = true →
      pair.registration = pair'.registration → ∀ source,
        ((∃ tables, Registration.read source pair = .ok tables) ↔
          ∃ tables', Registration.read source pair' = .ok tables') ∧
        ∀ tables tables', Registration.read source pair = .ok tables →
          Registration.read source pair' = .ok tables' →
            tables' = { tables with pair := pair' } ∧
              tables'.methodAddress = tables.methodAddress) := by
  constructor
  · intro h data source source' metadata metadata' h_decode h_decode'
    obtain ⟨header, registration, h_pair', -, -, h_registration, h_metadata'⟩ :=
      Metadata.decode_eq_ok_iff.mp h_decode'
    have h_same := Metadata.decode_congr h h_decode h_pair' h_registration
    rw [h_decode', Except.ok.injEq] at h_same
    rw [h_same]
  intro h_pair h_pair' h source
  have h_read := Registration.read_congr h_pair h_pair' h source
  cases h_tables : Registration.read source pair with
  | error e =>
    -- both fail
    rw [h_tables] at h_read
    rw [h_read]
    refine ⟨iff_of_false ?_ ?_, fun tables tables' h_ok => by cases h_ok⟩
    · rintro ⟨tables, h_ok⟩
      cases h_ok
    · rintro ⟨tables, h_ok⟩
      cases h_ok
  | ok tables =>
    rw [h_tables] at h_read
    rw [h_read]
    refine ⟨iff_of_true ⟨tables, rfl⟩ ⟨_, rfl⟩, fun found found' h_found h_found' => ?_⟩
    cases h_found
    cases h_found'
    refine ⟨rfl, Registration.methodAddress_congr ?_⟩
    rw [Registration.pair_of_read h_tables]
    exact h

/-- The image of zeros for a machine with short pointers and the other byte order. -/
def RegistrationSource.swappedZeros : RegistrationSource :=
  { RegistrationSource.zeros with
    image := { RegistrationSource.zeros.image with pointerWidth := .bits32, endian := .big } }

/-- `Draft.sample` next to another image, and the image of zeros next to another blob. -/
theorem axes_independent_sample :
    (∃ metadata metadata',
      Metadata.decode Draft.sample.blob .zeros Draft.sample.pair = .ok metadata ∧
      Metadata.decode Draft.sample.blob .swappedZeros ⟨⟨27, 1⟩, ⟨24, 1⟩⟩ = .ok metadata' ∧
      metadata' =
        { metadata with pair := ⟨⟨27, 1⟩, ⟨24, 1⟩⟩, registration := metadata'.registration }) ∧
    ∃ tables tables', Registration.read .zeros Draft.sample.pair = .ok tables ∧
      Registration.read .zeros ⟨⟨16, 0⟩, ⟨29, 0⟩⟩ = .ok tables' ∧
      tables' = { tables with pair := ⟨⟨16, 0⟩, ⟨29, 0⟩⟩ } ∧
      tables'.methodAddress = tables.methodAddress := by
  have h_some : (Registration.read .zeros Draft.sample.pair).toOption.isSome = true ∧
      (Registration.read .swappedZeros ⟨⟨27, 1⟩, ⟨24, 1⟩⟩).toOption.isSome = true := by
    decide +kernel
  have h_read {source : RegistrationSource} {pair : VersionPair}
      (h : (Registration.read source pair).toOption.isSome = true) :
      ∃ tables, Registration.read source pair = .ok tables := by
    cases h_tables : Registration.read source pair with
    | error e =>
      rw [h_tables] at h
      cases h
    | ok tables => exact ⟨tables, rfl⟩
  obtain ⟨tables, h_tables⟩ := h_read h_some.1
  obtain ⟨swapped, h_swapped⟩ := h_read h_some.2
  constructor
  · have h_half : Draft.sample.pair.metadata = (⟨⟨27, 1⟩, ⟨24, 1⟩⟩ : VersionPair).metadata := rfl
    obtain ⟨metadata, h_decode, -⟩ := Metadata.decode_blob Draft.fits_sample h_tables
    have h_decode' := Metadata.decode_congr h_half h_decode (by decide) h_swapped
    have h_same := (axes_independent _ _).1 h_half _ _ _ _ _ h_decode h_decode'
    exact ⟨metadata, _, h_decode, h_decode', h_same⟩
  · have h_half : Draft.sample.pair.registration =
        (⟨⟨16, 0⟩, ⟨29, 0⟩⟩ : VersionPair).registration := rfl
    obtain ⟨h_iff, h_same⟩ :=
      (axes_independent _ _).2 Draft.fits_sample.supported (by decide) h_half .zeros
    obtain ⟨tables', h_tables'⟩ := h_iff.mp ⟨tables, h_tables⟩
    obtain ⟨h_eq, h_address⟩ := h_same tables tables' h_tables h_tables'
    exact ⟨tables, tables', h_tables, h_tables', h_eq, h_address⟩

end GlobalMetadata
