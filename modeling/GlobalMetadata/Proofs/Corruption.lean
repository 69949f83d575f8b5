import GlobalMetadata.Proofs.Reading

/-!
# Sections that reach outside the blob

Decoding is to report a section that lies outside the blob, and nothing else, as corrupt. What it
does is worked out in two steps.

* Only locating a section blames one. What reading the registration tables can end with is known,
  and it is never that (`Registration.blameless_registration`).
* Locating the sections one after the other fails at the first that lies outside
  (`Header.forM_check_eq_error_iff`).

Together they say for which blobs decoding blames which section (`Metadata.decode_corruption`). The
header also gives a place to the interface offsets, and that one is never looked at.
-/

namespace GlobalMetadata

/-! ### Registration tables do not mention sections -/

/-- The error is not about a section of the blob. -/
def Error.NotOfSection : Error → Prop
  | .corruptSection .. => False
  | _ => True

/-- **Registration tables do not blame the blob**, whatever is wrong with them. -/
theorem Registration.blameless_registration (source : RegistrationSource) (pair : VersionPair) :
    Raises Error.NotOfSection (Registration.read source pair) := by
  refine (raises_read source pair).imp fun e h_e => ?_
  rcases h_e with rfl | h_image
  · trivial
  · cases e <;> trivial

/-! ### Sections outside the blob -/

namespace Header

variable {header : Header} {length : Nat} {id : SectionId}

/-- The header has the section, but its place reaches past the end of a blob of `length` bytes. -/
def isOutside (header : Header) (length : Nat) (id : SectionId) : Bool :=
  (header.declared? id).any fun place => length < place.offset + place.size

theorem le_of_isOutside_eq_false (h : header.isOutside length id = false) {place : Section}
    (h_place : header.declared? id = some place) : place.offset + place.size ≤ length := by
  rw [isOutside, h_place, Option.any_some, decide_eq_false_iff_not] at h
  exact Nat.not_lt.mp h

theorem check_eq_error (h : header.isOutside length id = true) :
    ∃ place, header.declared? id = some place ∧
      header.check id length = .error (.corruptSection id place.offset) := by
  unfold isOutside at h
  unfold check locate
  cases h_place : header.declared? id with
  | none =>
    rw [h_place] at h
    cases h
  | some place =>
    rw [h_place, Option.any_some, decide_eq_true_eq] at h
    refine ⟨place, rfl, ?_⟩
    dsimp only
    rw [if_neg (Nat.not_le.mpr h)]
    rfl

/-- **The first one counts.** Locating sections one after the other fails at the first of them that
lies outside. -/
theorem forM_check_eq_error_iff {ids : List SectionId} {e : Error} :
    (forM ids fun id => header.check id length) = .error e ↔
      ∃ id place, ids.find? (header.isOutside length) = some id ∧
        header.declared? id = some place ∧ e = .corruptSection id place.offset := by
  induction ids with
  | nil =>
    refine iff_of_false (fun h => by cases h) ?_
    rintro ⟨id, place, h_find, -⟩
    cases h_find
  | cons id ids ih =>
    rw [List.forM_cons]
    cases h_outside : header.isOutside length id with
    | false =>
      rw [check_eq_ok fun _ => le_of_isOutside_eq_false h_outside,
        List.find?_cons_of_neg (ne_true_of_eq_false h_outside)]
      exact ih
    | true =>
      obtain ⟨place, h_place, h_check⟩ := check_eq_error h_outside
      rw [h_check, List.find?_cons_of_pos h_outside]
      constructor
      · intro h
        cases h
        exact ⟨id, place, rfl, h_place, rfl⟩
      · rintro ⟨id', place', h_id, h_place', rfl⟩
        cases h_id
        cases h_place.symm.trans h_place'
        rfl

/-- A section that can be located is cut out of the blob completely. -/
theorem slice?_of_locate {data : ByteArray} {place : Section}
    (h : header.locate id data.size = .ok (some place)) :
    Bytes.slice? data place.offset place.size = some (header.bytesOf data id) := by
  unfold locate at h
  cases h_place : header.declared? id with
  | none =>
    rw [h_place] at h
    cases h
  | some place' =>
    rw [h_place] at h
    dsimp only at h
    split at h
    next h_inside =>
      cases h
      rw [Section.slice?_eq_bytesIn h_inside, bytesOf, h_place]
      rfl
    next => cases h

end Header

/-- Every section is read, with one exception. -/
theorem SectionId.mem_readingOrder_iff (id : SectionId) :
    id ∈ readingOrder ↔ id ≠ .interfaceOffsets := by
  cases id <;> decide

namespace Metadata

/-- Decoding blames a section exactly if locating the sections does. -/
theorem decode_eq_corruptSection_iff {data : ByteArray} {source : RegistrationSource}
    {pair : VersionPair} {header : Header} (h : pair.isSupported = true)
    (h_header : Header.read data pair = .ok header) {id : SectionId} {offset : Nat} :
    decode data source pair = .error (.corruptSection id offset) ↔
      (forM SectionId.readingOrder fun id => header.check id data.size) =
        .error (.corruptSection id offset) := by
  rw [decode_eq h h_header]
  cases h_checks : forM SectionId.readingOrder fun id => header.check id data.size with
  | error e =>
    constructor
    all_goals
      intro h_error
      cases h_error
      rfl
  | ok _ =>
    refine iff_of_false (fun h_decode => ?_) (fun h_error => by cases h_error)
    -- only the registration tables are left to fail
    have h_rest := (Registration.blameless_registration source pair).bind fun registration =>
      Raises.pure (ofSections pair header (header.bytesOf data) registration)
    exact h_rest _ h_decode

/-- **Corruption, exactly.** With a readable header, decoding blames a section if and only if some
section other than that of the interface offsets lies outside the blob, and it blames the first one
in the order of reading, with the offset that the header gives. What is cut out for a section that
can be located is complete, so nothing outside the blob is ever read; and all that a successful
decoding reads of the blob is these bytes and the header.

The section of the interface offsets is never located. However far outside it lies, the decoding
succeeds or fails without it. -/
theorem decode_corruption {data : ByteArray} {pair : VersionPair} {header : Header}
    (h_pair : pair.isSupported = true) (h_header : Header.read data pair = .ok header)
    (source : RegistrationSource) :
    (∀ id offset, decode data source pair = .error (.corruptSection id offset) ↔
      SectionId.readingOrder.find? (header.isOutside data.size) = some id ∧
        (header.declared? id).map (·.offset) = some offset) ∧
    ((∃ id offset, decode data source pair = .error (.corruptSection id offset)) ↔
      ∃ id, id ≠ .interfaceOffsets ∧ header.isOutside data.size id = true) ∧
    (∀ id place, header.locate id data.size = .ok (some place) →
      Bytes.slice? data place.offset place.size = some (header.bytesOf data id)) ∧
    (∀ metadata, decode data source pair = .ok metadata →
      metadata = ofSections pair header (header.bytesOf data) metadata.registration) := by
  have h_blame (id : SectionId) (offset : Nat) :
      decode data source pair = .error (.corruptSection id offset) ↔
        SectionId.readingOrder.find? (header.isOutside data.size) = some id ∧
          (header.declared? id).map (·.offset) = some offset := by
    rw [decode_eq_corruptSection_iff h_pair h_header, Header.forM_check_eq_error_iff,
      Option.map_eq_some_iff]
    constructor
    · rintro ⟨id', place, h_find, h_place, h_error⟩
      cases h_error
      exact ⟨h_find, place, h_place, rfl⟩
    · rintro ⟨h_find, place, h_place, rfl⟩
      exact ⟨id, place, h_find, h_place, rfl⟩
  refine ⟨h_blame, ⟨?_, ?_⟩, fun id place => Header.slice?_of_locate, ?_⟩
  · rintro ⟨id, offset, h_error⟩
    obtain ⟨h_find, -⟩ := (h_blame id offset).mp h_error
    exact ⟨id, (SectionId.mem_readingOrder_iff id).mp (List.mem_of_find?_eq_some h_find),
      List.find?_some h_find⟩
  · rintro ⟨id, h_id, h_outside⟩
    -- some section is outside, so there is a first one
    have h_some : (SectionId.readingOrder.find? (header.isOutside data.size)).isSome = true :=
      List.find?_isSome.mpr ⟨id, (SectionId.mem_readingOrder_iff id).mpr h_id, h_outside⟩
    obtain ⟨first, h_first⟩ := Option.isSome_iff_exists.mp h_some
    obtain ⟨place, h_place, -⟩ := Header.check_eq_error (List.find?_some h_first)
    exact ⟨first, place.offset, (h_blame first _).mpr ⟨h_first, by rw [h_place]; rfl⟩⟩
  · intro metadata h_decode
    rw [decode_eq h_pair h_header] at h_decode
    cases h_checks : forM SectionId.readingOrder fun id => header.check id data.size with
    | error e =>
      rw [h_checks] at h_decode
      cases h_decode
    | ok _ =>
      cases h_registration : Registration.read source pair with
      | error e =>
        rw [h_checks, h_registration] at h_decode
        cases h_decode
      | ok registration =>
        rw [h_checks, h_registration] at h_decode
        cases h_decode
        rfl

/-- A blob of version 16 that consists of its header. All sections are empty and lie inside, but
that of the interface offsets starts far behind the end. -/
def strayBlob : ByteArray :=
  let word : Field → Nat
    | .sanity => Header.magic
    | .version => 16
    | .interfaceOffsetsOffset => 0x10000
    | _ => 0
  ⟨((RecordKind.metadataHeader.blobLayout (.uniform ⟨16, 0⟩)).fields.flatMap fun spec =>
    Endian.little.encode 4 (word spec.field)).toArray⟩

/-- Decoding `strayBlob` never blames a section, whatever image comes with it. -/
theorem decode_corruption_stray : ∃ header,
    Header.read strayBlob (.uniform ⟨16, 0⟩) = .ok header ∧
      header.isOutside strayBlob.size .interfaceOffsets = true ∧
      ∀ source, ¬ ∃ id offset,
        decode strayBlob source (.uniform ⟨16, 0⟩) = .error (.corruptSection id offset) := by
  have h_read : (Header.read strayBlob (.uniform ⟨16, 0⟩)).toOption.any (fun header =>
      header.isOutside strayBlob.size .interfaceOffsets &&
        SectionId.readingOrder.all fun id => !header.isOutside strayBlob.size id) = true := by
    decide +kernel
  cases h_header : Header.read strayBlob (.uniform ⟨16, 0⟩) with
  | error e =>
    rw [h_header] at h_read
    cases h_read
  | ok header =>
    rw [h_header] at h_read
    obtain ⟨h_stray, h_others⟩ := Bool.and_eq_true_iff.mp h_read
    refine ⟨header, rfl, h_stray, fun source h_error => ?_⟩
    obtain ⟨-, h_blamed, -⟩ := decode_corruption (by decide) h_header source
    obtain ⟨id, h_id, h_outside⟩ := h_blamed.mp h_error
    have h_inside := List.all_eq_true.mp h_others id ((SectionId.mem_readingOrder_iff id).mpr h_id)
    rw [h_outside] at h_inside
    cases h_inside

end Metadata

end GlobalMetadata
