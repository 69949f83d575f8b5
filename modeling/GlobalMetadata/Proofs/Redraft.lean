import GlobalMetadata.Proofs.Footprint

/-!
# Writing the starts of empty ranges differently

A blob can be written again with other contents (`Draft.rewritten`). If the contents are the same
apart from where empty ranges start, then every section keeps its place, so that the header stays,
and the two blobs are alike (`Draft.blobsAlike`).
-/

namespace GlobalMetadata

/-! ### Structures -/

/-- Values that differ only in the starts of empty ranges make records that are alike. -/
theorem ResolvedLayout.alike_record {layout : ResolvedLayout} {values values' : Field → Nat}
    (h : ∀ spec ∈ layout.fields, values' spec.field = values spec.field ∨
      ∃ range ∈ layout.kind.ranges, range.2 = spec.field ∧ values range.1 = 0 ∧
        (layout.fields.any fun other => other.field = range.1) = true) :
    (layout.record values).Alike (layout.record values') where
  kind := rfl
  version := rfl
  entries := by
    refine List.forall₂_map_left_iff.mpr (List.forall₂_map_right_iff.mpr ?_)
    refine List.forall₂_same.mpr fun spec h_spec => ⟨rfl, (h spec h_spec).imp_right ?_⟩
    rintro ⟨⟨counter, base⟩, h_range, h_base, h_zero, h_has⟩
    refine ⟨counter, h_base ▸ h_range, ?_⟩
    rw [get?_record, if_pos h_has, h_zero]

/-- Structures that were written one after the other are there again. -/
theorem recordsOf_encode {kind : RecordKind} {pair : VersionPair} (h_pair : pair.isSupported = true)
    {table : List (Field → Nat)} (h_fits : (Shape.rows kind).Fits pair table) :
    recordsOf kind pair ((Shape.rows kind).encode pair table) =
      table.map (kind.blobLayout pair).record := by
  have h_size : (kind.blobLayout pair).size ≠ 0 :=
    RecordKind.size_ne_zero (kind.resolve_eq_blobLayout h_pair)
  have h_each (values : Field → Nat) :
      ((kind.blobLayout pair).encode .little values).length = (kind.blobLayout pair).size :=
    ResolvedLayout.length_encode ..
  have h_count : ((Shape.rows kind).encode pair table).length / (kind.blobLayout pair).size =
      table.length := by
    rw [Shape.encode, length_flatMap_of_length_eq table fun values _ => h_each values]
    exact Nat.mul_div_cancel _ (Nat.pos_of_ne_zero h_size)
  rw [recordsOf, h_count, Shape.encode, Bytes.chunks_flatMap table fun values _ => h_each values,
    List.map_map]
  refine List.map_congr_left fun values h_values => ?_
  have h_entries := ResolvedLayout.entriesOf_flatMap_encode .little (h_fits values h_values) []
  rw [List.append_nil] at h_entries
  exact congrArg (Record.mk kind (pair.on kind.axis)) h_entries

/-! ### Contents -/

/-- Contents of a section that are the same, apart from the starts of empty ranges. -/
def Shape.Redrafts (pair : VersionPair) : (shape : Shape) → shape.Content → shape.Content → Prop
  | .rows kind, (table : List (Field → Nat)), (table' : List (Field → Nat)) =>
    List.Forall₂ (fun values values' =>
      ((kind.blobLayout pair).record values).Alike ((kind.blobLayout pair).record values'))
      table table'
  | .indices, (table : List Int), (table' : List Int) => table' = table
  | .bytes, (content : List UInt8), (content' : List UInt8) => content' = content

section Contents

variable {pair : VersionPair} {shape : Shape} {content content' : shape.Content}

/-- They take as many bytes. -/
theorem Shape.Redrafts.length_eq (h : shape.Redrafts pair content content') :
    (shape.encode pair content').length = (shape.encode pair content).length := by
  cases shape with
  | rows kind =>
    have h_length (table : List (Field → Nat)) : ((Shape.rows kind).encode pair table).length =
        table.length * (kind.blobLayout pair).size :=
      length_flatMap_of_length_eq table fun _ _ => ResolvedLayout.length_encode ..
    exact (h_length content').trans ((congrArg (· * _) h.length_eq.symm).trans
      (h_length content).symm)
  | indices => exact congrArg (fun table => (Shape.indices.encode pair table).length) h
  | bytes => exact congrArg List.length h

/-- Their bytes are alike. -/
theorem Shape.Redrafts.alike (h : shape.Redrafts pair content content')
    (h_pair : pair.isSupported = true) (h_fits : shape.Fits pair content)
    (h_fits' : shape.Fits pair content') :
    shape.Alike pair (shape.encode pair content) (shape.encode pair content') := by
  cases shape with
  | rows kind =>
    show List.Forall₂ Record.Alike (recordsOf kind pair _) (recordsOf kind pair _)
    rw [recordsOf_encode h_pair h_fits, recordsOf_encode h_pair h_fits']
    exact List.forall₂_map_left_iff.mpr (List.forall₂_map_right_iff.mpr h)
  | indices => exact congrArg (Shape.indices.encode pair) h
  | bytes => exact h

theorem Shape.redrafts_refl (pair : VersionPair) (shape : Shape) (content : shape.Content) :
    shape.Redrafts pair content content := by
  cases shape with
  | rows kind =>
    refine List.forall₂_same.mpr fun values _ => ?_
    exact ResolvedLayout.alike_record fun _ _ => .inl rfl
  | indices => rfl
  | bytes => rfl

end Contents

/-! ### Blobs -/

theorem Bytes.startOf_congr {κ : Type} [DecidableEq κ] {write write' : κ → List UInt8}
    (h : ∀ key, (write' key).length = (write key).length) (key : κ) (keys : List κ) :
    startOf write' key keys = startOf write key keys := by
  induction keys with
  | nil => rfl
  | cons other keys ih =>
    rw [startOf, startOf, ih, padded, padded, List.length_append, List.length_append,
      List.length_replicate, List.length_replicate, h]

namespace Draft

/-- The draft with other contents. -/
def rewritten (draft : Draft) (contents : (id : SectionId) → id.shape.Content) : Draft :=
  { draft with contents := contents }

variable {draft : Draft} {contents : (id : SectionId) → id.shape.Content}
  (h : ∀ id : SectionId, id.shape.Redrafts draft.pair (draft.contents id) (contents id))

include h

theorem length_content_rewritten (id : SectionId) :
    ((draft.rewritten contents).content id).length = (draft.content id).length :=
  (h id).length_eq

/-- Every section has the same place. -/
theorem word_rewritten : (draft.rewritten contents).word = draft.word := by
  have h_start (id : SectionId) : (draft.rewritten contents).start id = draft.start id :=
    congrArg (draft.layout.size + ·)
      (Bytes.startOf_congr (length_content_rewritten h) id draft.sections)
  have h_sections : (draft.rewritten contents).sections = draft.sections := rfl
  funext field
  unfold word
  simp only [h_start, length_content_rewritten h, h_sections]
  rfl

theorem header_rewritten : (draft.rewritten contents).header = draft.header := by
  unfold header
  rw [word_rewritten h]
  rfl

theorem length_bytes_rewritten :
    (draft.rewritten contents).bytes.length = draft.bytes.length := by
  have h_padded (id : SectionId) : (Bytes.padded ((draft.rewritten contents).content id)).length =
      (Bytes.padded (draft.content id)).length := by
    rw [Bytes.padded, Bytes.padded, List.length_append, List.length_append, List.length_replicate,
      List.length_replicate, length_content_rewritten h]
  have h_sections : (draft.rewritten contents).sections = draft.sections := rfl
  rw [bytes, bytes, List.length_append, List.length_append, ResolvedLayout.length_encode,
    ResolvedLayout.length_encode, List.length_flatMap, List.length_flatMap, h_sections]
  simp only [h_padded]
  rfl

theorem fits_rewritten (h_fits : draft.Fits)
    (h_contents : ∀ id, draft.has id = true → id.shape.Fits draft.pair (contents id)) :
    (draft.rewritten contents).Fits where
  supported := h_fits.supported
  contents := h_contents
  others := h_fits.others
  length := Nat.lt_of_le_of_lt (Nat.le_of_eq (length_bytes_rewritten h)) h_fits.length

/-- **Blobs** that are written from the same contents, apart from the starts of empty ranges, are
alike. -/
theorem blobsAlike (h_fits : draft.Fits) (h_fits' : (draft.rewritten contents).Fits) :
    BlobsAlike draft.pair draft.blob (draft.rewritten contents).blob where
  size := by rw [size_blob, size_blob, length_bytes_rewritten h]
  header := (read_blob h_fits').trans ((congrArg Except.ok (header_rewritten h)).trans
    (read_blob h_fits).symm)
  sections := by
    intro header h_header id
    cases (read_blob h_fits).symm.trans h_header
    have h_bytes' : draft.header.bytesOf (draft.rewritten contents).blob id =
        id.shape.encode draft.pair ((draft.rewritten contents).present id) := by
      rw [← header_rewritten h]
      exact bytesOf_blob (draft.rewritten contents) id
    rw [bytesOf_blob draft id, h_bytes']
    have h_present : id.shape.Redrafts draft.pair (draft.present id)
        ((draft.rewritten contents).present id) := by
      have h_has : (draft.rewritten contents).has id = draft.has id := rfl
      unfold present
      rw [h_has]
      split
      · exact h id
      · exact Shape.redrafts_refl ..
    exact h_present.alike h_fits.supported (fits_present h_fits id) (fits_present h_fits' id)

end Draft

end GlobalMetadata
