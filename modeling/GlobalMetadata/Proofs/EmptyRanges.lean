import GlobalMetadata.Proofs.Blame
import GlobalMetadata.Proofs.Indifference
import GlobalMetadata.Proofs.Redraft

/-!
# Where empty ranges start

A blob and an image can be changed in where their empty ranges start (`InputsAlike`): to a negative
start, one past the end, or an address that is not mapped. Decoding and resolution do not notice
(`TypeGraph.empty_starts_ignored`).

There is one exception. The start of an empty list of generic parameters is compared with the size
of their table, which that of an empty list of members is not. A definition with such a list that
starts behind the end of the table (`Metadata.Overshoots`) is never created
(`TypeGraph.definition_ne_of_overshoots`).
-/

namespace GlobalMetadata

/-! ### Lists of generic parameters that overshoot -/

section Overshooting

variable {m : Metadata} {row : TypeDefinition}

/-- An empty list of generic parameters is refused for where it starts. -/
theorem Metadata.Overshoots.parametersOf_eq (h : m.Overshoots row) :
    ∃ dangling, m.parametersOf row = .error (.unresolved dangling) := by
  obtain ⟨index, container, start, h_index, h_container, h_empty, h_start, h_beyond⟩ := h
  have h_outside : (StoredIndex.parameters index container.parameterStart
      container.parameterCount).IsOutside m := by
    rw [h_start, h_empty]
    exact h_beyond
  have h_error := (decides_parametersOf h_index h_container).eq_error h_outside
  rw [h_start] at h_error
  exact ⟨_, h_error⟩

theorem Metadata.Overshoots.not_traces (h : m.Overshoots row) {d : Nat}
    (h_row : m.typeDefinition d = .ok row) (lineage : Lineage) : ¬ m.Traces d lineage := by
  obtain ⟨dangling, h_error⟩ := h.parametersOf_eq
  -- a chain has the generic parameters of the definition
  have h_made (outer : Option Lineage) : m.lineageOf d row outer ≠ .ok lineage := by
    intro h_ok
    obtain ⟨name, -, h_ok⟩ := except_bind_eq_ok_iff.mp h_ok
    obtain ⟨namespaceName, -, h_ok⟩ := except_bind_eq_ok_iff.mp h_ok
    obtain ⟨rows, h_rows, -⟩ := except_bind_eq_ok_iff.mp h_ok
    rw [h_error] at h_rows
    cases h_rows
  intro h_traces
  cases h_traces with
  | top at_row _ made =>
    cases at_row.symm.trans h_row
    exact h_made _ made
  | nested at_row _ _ made =>
    cases at_row.symm.trans h_row
    exact h_made _ made

/-- **A definition that overshoots has no class** in any graph, and neither has any of its
instantiations. -/
theorem TypeGraph.definition_ne_of_overshoots (h : m.Overshoots row) {d : Nat}
    (h_row : m.typeDefinition d = .ok row) {config : Config} {id : ClassId} {c : ResolvedClass}
    (h_c : (build m config).class? id = some c) : c.definition ≠ d := by
  rintro rfl
  have h_sound : (Resolver.empty.run m config).arena.Sound m :=
    Resolver.sound_run (Arena.sound_empty m)
  obtain ⟨lineage, k, h_traces, h_shows⟩ := h_sound.classes id c h_c
  rw [← h_shows.key.1] at h_traces
  exact h.not_traces h_row lineage h_traces

end Overshooting

/-! ### Inputs that are alike -/

/-- **Inputs that are alike**: they are the same, apart from where empty ranges start. -/
structure InputsAlike (pair : VersionPair) (data data' : ByteArray)
    (source source' : RegistrationSource) : Prop where
  blob : BlobsAlike pair data data'
  tables : source.Alike pair source'
  followed : ∀ m, Metadata.decode data source pair = .ok m → ∀ link, m.Links link →
    ∀ lookup, link.lookup? = some lookup → lookup.Alike pair source.image source'.image

theorem InputsAlike.looksLike {pair : VersionPair} {data data' : ByteArray}
    {source source' : RegistrationSource} (h : InputsAlike pair data data' source source')
    {m m' : Metadata} (h_decode : Metadata.decode data source pair = .ok m) (h_alike : m.Alike m')
    (h_image : m.registration.image = source.image)
    (h_image' : m'.registration.image = source'.image)
    (h_inside : ∀ row ∈ m.typeDefinitions, ¬ m.Overshoots row)
    (h_inside' : ∀ row ∈ m'.typeDefinitions, ¬ m'.Overshoots row) : m.LooksLike m' pair where
  alike := h_alike
  layouts := by
    obtain ⟨_, registration, -, -, -, h_read, rfl⟩ := Metadata.decode_eq_ok_iff.mp h_decode
    rw [h_image]
    exact Registration.isFor_of_read h_read
  width := by rw [h_image, h_image', h.tables.width]
  lookups := by
    rw [h_image, h_image']
    exact h.followed m h_decode
  inside := h_inside
  inside' := h_inside'

/-! ### A definition without members -/

/-- The row of a definition without members, whose ranges start at `base`. -/
def Draft.memberlessRow (base : Nat) (field : Field) : Nat :=
  if field ∈ RecordKind.typeDefinition.starts then base
  else if field = .declaringTypeIndex then 2 ^ 32 - 1 else 0

/-- The row of an empty list of generic parameters that starts at `base`. -/
def Draft.memberlessContainer (base : Nat) (field : Field) : Nat :=
  if field ∈ RecordKind.genericContainer.starts then base else 0

/-- One definition without members and without generic parameters, and a short heap of names. All
ranges start at `base`. -/
def Draft.memberless (base : Nat) : Draft where
  pair := ⟨⟨27, 1⟩, ⟨29, 0⟩⟩
  contents
    | .typeDefinitions => [memberlessRow base]
    | .genericContainers => [memberlessContainer base]
    | .strings => [104, 105, 0]
    | id => id.shape.empty
  others _ := 0

namespace Draft

/-- Where the ranges start: at the front, past the end, or nowhere. -/
def someStarts : List Nat :=
  [0, 5, 2 ^ 32 - 1]

variable {base : Nat} (h : base ∈ someStarts)

include h

theorem redrafts_memberless (id : SectionId) : id.shape.Redrafts (memberless 0).pair
    ((memberless 0).contents id) ((memberless base).contents id) := by
  have h_rows : ∀ base ∈ someStarts,
      let layout := RecordKind.typeDefinition.blobLayout (memberless 0).pair
      ∀ spec ∈ layout.fields, memberlessRow base spec.field = memberlessRow 0 spec.field ∨
        ∃ range ∈ layout.kind.ranges, range.2 = spec.field ∧ memberlessRow 0 range.1 = 0 ∧
          (layout.fields.any fun other => other.field = range.1) = true := by
    decide
  have h_containers : ∀ base ∈ someStarts,
      let layout := RecordKind.genericContainer.blobLayout (memberless 0).pair
      ∀ spec ∈ layout.fields,
        memberlessContainer base spec.field = memberlessContainer 0 spec.field ∨
        ∃ range ∈ layout.kind.ranges, range.2 = spec.field ∧ memberlessContainer 0 range.1 = 0 ∧
          (layout.fields.any fun other => other.field = range.1) = true := by
    decide
  cases id with
  | typeDefinitions => exact .cons (ResolvedLayout.alike_record (h_rows base h)) .nil
  | genericContainers => exact .cons (ResolvedLayout.alike_record (h_containers base h)) .nil
  | _ => exact Shape.redrafts_refl ..

theorem fits_contents_memberless (id : SectionId) :
    id.shape.Fits (memberless 0).pair ((memberless base).contents id) := by
  have h_rows : ∀ base ∈ someStarts,
      ∀ spec ∈ (RecordKind.typeDefinition.blobLayout (memberless 0).pair).fields,
        memberlessRow base spec.field < 256 ^ spec.width.bytes .bits32 := by
    decide
  have h_containers : ∀ base ∈ someStarts,
      ∀ spec ∈ (RecordKind.genericContainer.blobLayout (memberless 0).pair).fields,
        memberlessContainer base spec.field < 256 ^ spec.width.bytes .bits32 := by
    decide
  cases id with
  | typeDefinitions =>
    intro row h_row
    rw [List.mem_singleton.mp h_row]
    exact h_rows base h
  | genericContainers =>
    intro row h_row
    rw [List.mem_singleton.mp h_row]
    exact h_containers base h
  | strings => trivial
  | _ => exact Shape.fits_empty _ _

omit h in
theorem fits_memberless_zero : (memberless 0).Fits where
  supported := by decide
  contents id _ := fits_contents_memberless (by decide) id
  others _ := Nat.two_pow_pos 32
  length := by decide +kernel

theorem fits_memberless : (memberless base).Fits :=
  fits_rewritten (redrafts_memberless h) fits_memberless_zero fun id _ =>
    fits_contents_memberless h id

/-- What `memberless` is decoded to. -/
theorem decode_memberless {source : RegistrationSource} {registration : Registration}
    (h_read : Registration.read source (memberless base).pair = .ok registration) :
    ∃ m row container,
      Metadata.decode (memberless base).blob source (memberless base).pair = .ok m ∧
      m.registration = registration ∧ m.typeDefinitions = #[row] ∧ row.fieldStart = asInt32 base ∧
      row.genericContainerIndex = some 0 ∧ m.genericContainers = #[container] ∧
      container.parameterCount = 0 ∧ container.parameterStart = asIndex base ∧
      m.genericParameters = #[] := by
  obtain ⟨m, h_decode, h_pair, -, h_registration, h_holds⟩ :=
    Metadata.decode_blob (fits_memberless h) h_read
  have h_rows : HoldsRows m.pair m.typeDefinitions [memberlessRow base] := h_holds .typeDefinitions
  have h_containers : HoldsRows m.pair m.genericContainers [memberlessContainer base] :=
    h_holds .genericContainers
  have h_parameters : HoldsRows m.pair m.genericParameters [] := h_holds .genericParameters
  rw [HoldsRows, h_pair] at h_rows h_containers
  -- the two rows, as far as they are looked at
  have h_row : ∀ base ∈ someStarts, (([memberlessRow base].mapM fun values => Row.ofRecord
      ((RecordKind.typeDefinition.blobLayout (memberless base).pair).record values) :
        Except Error (List TypeDefinition)).toOption.map
          (·.map fun row => (row.fieldStart, row.genericContainerIndex))) =
      some [(asInt32 base, some 0)] := by
    decide
  have h_container : ∀ base ∈ someStarts, (([memberlessContainer base].mapM fun values =>
      Row.ofRecord ((RecordKind.genericContainer.blobLayout (memberless base).pair).record values) :
        Except Error (List GenericContainer)).toOption.map
          (·.map fun container => (container.parameterCount, container.parameterStart))) =
      some [(0, asIndex base)] := by
    decide
  have h_row := (congrArg (Option.map _) (toOption_eq_some_iff.mpr h_rows)).symm.trans
    (h_row base h)
  have h_container := (congrArg (Option.map _) (toOption_eq_some_iff.mpr h_containers)).symm.trans
    (h_container base h)
  obtain ⟨row, h_row, h_values⟩ := List.map_eq_singleton_iff.mp (Option.some.inj h_row)
  obtain ⟨container, h_container, h_values'⟩ :=
    List.map_eq_singleton_iff.mp (Option.some.inj h_container)
  obtain ⟨h_start, h_index⟩ := Prod.mk.inj h_values
  obtain ⟨h_count, h_first⟩ := Prod.mk.inj h_values'
  refine ⟨m, row, container, h_decode, h_registration, Array.toList_inj.mp h_row, h_start, h_index,
    Array.toList_inj.mp h_container, h_count, h_first, ?_⟩
  exact Array.toList_inj.mp (Except.ok.inj h_parameters).symm

end Draft

/-- The layout of a root in an image with 64-bit pointers. -/
def emptyLayout (kind : RecordKind) : ResolvedLayout :=
  ⟨kind, (Draft.memberless 0).pair.on kind.axis, .bits64,
    (Layout.of kind).present (Draft.memberless 0).pair⟩

/-- The values of a root whose arrays are empty and start at `base`. -/
def emptyRoot (kind : RecordKind) (base : Nat) (field : Field) : Nat :=
  if field ∈ kind.starts then base else 0

/-- What was written into an image is read where it stands. -/
theorem Image.structure_eq_ok {image : Image} {pair : VersionPair} {kind : RecordKind}
    {layout : ResolvedLayout} {values : Field → Nat} {address : Nat} (before : List UInt8)
    {rest : List UInt8} (h_layout : kind.resolve pair image.pointerWidth = .ok layout)
    (h_fits : layout.Fits values)
    (h_data : image.data.data.toList = before ++ (layout.encode image.endian values ++ rest))
    (h_address : image.offsetOf address = .ok before.length) :
    image.structure pair kind address = .ok (layout.record values) := by
  have h_inside : before.length + layout.size ≤ image.data.size := by
    have h_length := congrArg List.length h_data
    rw [List.length_append, List.length_append, ResolvedLayout.length_encode] at h_length
    have h_size : image.data.data.toList.length = image.data.size := Array.length_toList
    omega
  have h_read : layout.readAt image.data image.endian before.length =
      .ok (layout.record values) := by
    refine ResolvedLayout.readAt_eq_ok_iff.mpr ⟨_, Bytes.slice?_eq_some h_inside, ?_⟩
    rw [h_data, List.drop_left, List.take_left' (ResolvedLayout.length_encode _),
      ← List.append_nil (layout.encode _ _)]
    exact ResolvedLayout.read_encode _ h_fits []
  rw [Image.structure, h_layout]
  show image.record layout address = _
  rw [Image.record, h_address]
  exact h_read

namespace RegistrationSource

/-- An image of the two roots, one after the other. Their arrays are empty and start at `base`. -/
def rootsOnly (base : Nat) : RegistrationSource where
  image :=
    { format := .flat
      data := ⟨((emptyLayout .codeRegistration).encode .little (emptyRoot .codeRegistration base) ++
        (emptyLayout .metadataRegistration).encode .little
          (emptyRoot .metadataRegistration base)).toArray⟩
      segments := [⟨0x1000, 0, 0x1000⟩]
      pointerWidth := .bits64
      endian := .little }
  codeRegistration := 0x1000
  metadataRegistration := 0x1000 + (emptyLayout .codeRegistration).size

/-- Nothing but the roots is looked up if they only have empty arrays. -/
theorem LooksUp.eq_root {source : RegistrationSource} {pair : VersionPair}
    (h_lists : ∀ kind? array, source.Lists pair kind? array → array.count = 0)
    (h_inlines : ∀ kind array, source.Inlines pair kind array → array.count = 0) {lookup : Lookup}
    (h : source.LooksUp pair lookup) :
    lookup = .record .codeRegistration source.codeRegistration ∨
      lookup = .record .metadataRegistration source.metadataRegistration := by
  induction h with
  | code => exact .inl rfl
  | metadata => exact .inr rfl
  | addresses h_listed h_some => exact absurd (h_lists _ _ h_listed) h_some
  | element h_listed h_read h_among =>
    rw [h_lists _ _ h_listed] at h_read
    cases h_read
    exact absurd h_among List.not_mem_nil
  | inline h_inlined h_some => exact absurd (h_inlines _ _ h_inlined) h_some
  | moduleName _ _ _ ih => rcases ih with ih | ih <;> cases ih
  | moduleMethods _ _ _ _ _ ih => rcases ih with ih | ih <;> cases ih

/-- The layout of a root is the one that the version has. -/
theorem resolve_emptyLayout (kind : RecordKind) :
    kind.resolve (Draft.memberless 0).pair .bits64 = .ok (emptyLayout kind) :=
  RecordKind.resolve_eq_ok_iff.mpr ⟨by decide, rfl⟩

theorem fits_emptyRoot : ∀ kind ∈ [RecordKind.codeRegistration, .metadataRegistration],
    ∀ base ∈ [0, 7], (emptyLayout kind).Fits (emptyRoot kind base) := by
  unfold ResolvedLayout.Fits
  decide

theorem structure_rootsOnly : ∀ base ∈ [0, 7],
    let image := (rootsOnly base).image
    image.structure (Draft.memberless 0).pair .codeRegistration (rootsOnly 0).codeRegistration =
        .ok ((emptyLayout .codeRegistration).record (emptyRoot .codeRegistration base)) ∧
      image.structure (Draft.memberless 0).pair .metadataRegistration
          (rootsOnly 0).metadataRegistration =
        .ok ((emptyLayout .metadataRegistration).record
          (emptyRoot .metadataRegistration base)) := by
  intro base h_base image
  constructor
  · exact Image.structure_eq_ok [] (resolve_emptyLayout _)
      (fits_emptyRoot _ (by decide) base h_base) rfl rfl
  · -- the other root comes first
    let first := (emptyLayout .codeRegistration).encode .little (emptyRoot .codeRegistration base)
    have h_address : image.offsetOf (rootsOnly 0).metadataRegistration = .ok first.length := by
      rw [ResolvedLayout.length_encode]
      rfl
    exact Image.structure_eq_ok first (resolve_emptyLayout _)
      (fits_emptyRoot _ (by decide) base h_base) (List.append_nil _).symm h_address

/-- What the roots are converted to. -/
theorem roots_rootsOnly : ∀ base ∈ [0, 7],
    (rootsOnly base).codeRoot (Draft.memberless 0).pair =
      .ok ⟨none, ⟨0, base⟩, ⟨0, base⟩, some ⟨0, base⟩⟩ ∧
    (rootsOnly base).metadataRoot (Draft.memberless 0).pair =
      .ok ⟨⟨0, base⟩, ⟨0, base⟩, ⟨0, base⟩, ⟨0, base⟩, ⟨0, base⟩, ⟨0, base⟩, ⟨0, base⟩,
        some ⟨0, base⟩⟩ := by
  have h_converted : ∀ base ∈ [0, 7],
      (CodeRegistration.ofRecord ((emptyLayout .codeRegistration).record
        (emptyRoot .codeRegistration base))).toOption =
          some ⟨none, ⟨0, base⟩, ⟨0, base⟩, some ⟨0, base⟩⟩ ∧
      (MetadataRegistration.ofRecord ((emptyLayout .metadataRegistration).record
        (emptyRoot .metadataRegistration base))).toOption =
          some ⟨⟨0, base⟩, ⟨0, base⟩, ⟨0, base⟩, ⟨0, base⟩, ⟨0, base⟩, ⟨0, base⟩, ⟨0, base⟩,
            some ⟨0, base⟩⟩ := by
    decide +kernel
  intro base h_base
  obtain ⟨h_code, h_metadata⟩ := structure_rootsOnly base h_base
  obtain ⟨h_code', h_metadata'⟩ := h_converted base h_base
  rw [toOption_eq_some_iff] at h_code' h_metadata'
  exact ⟨except_bind_eq_ok_iff.mpr ⟨_, h_code, h_code'⟩,
    except_bind_eq_ok_iff.mpr ⟨_, h_metadata, h_metadata'⟩⟩

/-- The roots have no arrays with elements. -/
theorem looksUp_rootsOnly {lookup : Lookup}
    (h : (rootsOnly 0).LooksUp (Draft.memberless 0).pair lookup) :
    lookup = .record .codeRegistration (rootsOnly 0).codeRegistration ∨
      lookup = .record .metadataRegistration (rootsOnly 0).metadataRegistration := by
  obtain ⟨h_code, h_metadata⟩ := roots_rootsOnly 0 (by decide)
  refine h.eq_root (fun kind? array h_list => ?_) fun kind array h_inline => ?_
  · cases h_list with
    | types read | genericClasses read | genericInsts read =>
      cases h_metadata.symm.trans read
      rfl
    | modules read stored | methodPointers read stored =>
      cases h_code.symm.trans read
      cases stored
      try rfl
  · cases h_inline with
    | methodSpecs read | genericMethods read =>
      cases h_metadata.symm.trans read
      rfl

end RegistrationSource

/-- Structures that are there and are alike. -/
theorem Lookup.alike_record {pair : VersionPair} {image image' : Image} {kind : RecordKind}
    {address : Nat} {r r' : Record} (h_r : image.structure pair kind address = .ok r)
    (h_r' : image'.structure pair kind address = .ok r') (h : r.Alike r') :
    (Lookup.record kind address).Alike pair image image' := by
  show Both Record.Alike _ _
  rw [h_r, h_r']
  exact .ok h

/-- The only list of generic parameters starts at the front or nowhere. -/
theorem Metadata.not_overshoots {m : Metadata} {row : TypeDefinition} {container : GenericContainer}
    (h_rows : m.typeDefinitions = #[row]) (h_index : row.genericContainerIndex = some 0)
    (h_containers : m.genericContainers = #[container])
    (h_start : container.parameterStart.getD 0 = 0) :
    ∀ row ∈ m.typeDefinitions, ¬ m.Overshoots row := by
  rintro row' h_row' ⟨index, container', start, h_index', h_found, -, h_first, h_beyond⟩
  rw [h_rows, Array.mem_singleton] at h_row'
  subst h_row'
  cases h_index.symm.trans h_index'
  rw [h_containers] at h_found
  obtain rfl : container = container' := Option.some.inj h_found
  rw [h_first] at h_start
  obtain rfl : start = 0 := h_start
  exact Nat.not_lt_zero _ h_beyond

/-- Without listed types and instantiations nothing is linked. -/
theorem Metadata.not_links {m : Metadata} (h_types : m.registration.types = #[])
    (h_classes : m.registration.genericClasses = #[]) (link : Link) : ¬ m.Links link := by
  intro h
  induction h with
  | type h_listed =>
    rw [h_types] at h_listed
    exact Array.not_mem_empty _ h_listed
  | instantiated h_listed =>
    rw [h_classes] at h_listed
    exact Array.not_mem_empty _ h_listed
  | element _ _ ih | array _ _ ih | instantiation _ _ ih | shape _ _ ih | definition _ _ ih
  | classArguments _ _ ih | methodArguments _ _ ih | argument _ _ _ ih | descriptor _ _ ih
  | generic _ _ ih | list _ _ ih => exact ih

theorem Registration.read_rootsOnly (base : Nat) (h : base ∈ [0, 7]) : ∃ tables,
    read (.rootsOnly base) (Draft.memberless 0).pair = .ok tables ∧ tables.types = #[] ∧
      tables.genericClasses = #[] := by
  have h_tables : (read (.rootsOnly base) (Draft.memberless 0).pair).toOption.map
      (fun tables => (tables.types, tables.genericClasses)) = some (#[], #[]) := by
    obtain ⟨h_code, h_metadata⟩ := RegistrationSource.roots_rootsOnly base h
    rw [read_eq, h_code, h_metadata]
    -- nothing is read from an array without elements
    rfl
  obtain ⟨tables, h_read, h_empty⟩ := Option.map_eq_some_iff.mp h_tables
  obtain ⟨h_types, h_classes⟩ := Prod.mk.inj h_empty
  exact ⟨tables, toOption_eq_some_iff.mp h_read, h_types, h_classes⟩

/-- Empty arrays may start at an address that is not mapped. -/
theorem RegistrationSource.alike_rootsOnly :
    (rootsOnly 0).Alike (Draft.memberless 0).pair (rootsOnly 7) where
  width := rfl
  code := rfl
  metadata := rfl
  lookups := by
    obtain ⟨h_code, h_metadata⟩ := structure_rootsOnly 0 (by decide)
    obtain ⟨h_code', h_metadata'⟩ := structure_rootsOnly 7 (by decide)
    intro lookup h_lookup
    rcases looksUp_rootsOnly h_lookup with rfl | rfl
    · exact Lookup.alike_record h_code h_code' (ResolvedLayout.alike_record (by decide))
    · exact Lookup.alike_record h_metadata h_metadata' (ResolvedLayout.alike_record (by decide))

/-- Wherever the empty ranges of `memberless` and the empty arrays of the roots start. -/
theorem inputsAlike_memberless {base : Nat} (h : base ∈ Draft.someStarts) :
    InputsAlike (Draft.memberless 0).pair (Draft.memberless 0).blob (Draft.memberless base).blob
      (.rootsOnly 0) (.rootsOnly 7) where
  blob := Draft.blobsAlike (Draft.redrafts_memberless h) Draft.fits_memberless_zero
    (Draft.fits_memberless h)
  tables := RegistrationSource.alike_rootsOnly
  followed := by
    intro m h_decode link h_link
    obtain ⟨_, registration, -, -, -, h_registration, rfl⟩ := Metadata.decode_eq_ok_iff.mp h_decode
    obtain ⟨tables, h_read, h_types, h_classes⟩ := Registration.read_rootsOnly 0 (by decide)
    cases h_read.symm.trans h_registration
    exact absurd h_link (Metadata.not_links h_types h_classes link)

/-- **Starts of empty ranges are not looked at**, with one exception. Inputs that are the same apart
from where empty ranges start are either both decoded, or both refused with the same error. If they
are decoded, and no list of generic parameters without any starts behind the end of their table,
then the graphs are the same, for every configuration: the same classes with the same members, the
same modules and the same failures.

A definition with such a list has no class at all. -/
theorem TypeGraph.empty_starts_ignored {pair : VersionPair} {data data' : ByteArray}
    {source source' : RegistrationSource} (h : InputsAlike pair data data' source source') :
    Both (fun m m' =>
        (∀ row ∈ m.typeDefinitions, ¬ m.Overshoots row) →
        (∀ row ∈ m'.typeDefinitions, ¬ m'.Overshoots row) →
        ∀ config, build m' config = build m config)
      (Metadata.decode data source pair) (Metadata.decode data' source' pair) ∧
    ∀ (m : Metadata) (d : Nat) (row : TypeDefinition), m.typeDefinition d = .ok row →
      m.Overshoots row → ∀ config id c, (build m config).class? id = some c → c.definition ≠ d := by
  refine ⟨?_, fun m d row h_row h_over config id c => definition_ne_of_overshoots h_over h_row⟩
  refine (Metadata.both_decode h.blob h.tables).imp_of_ok ?_
  rintro m m' h_decode - ⟨h_alike, h_image, h_image'⟩ h_inside h_inside' config
  exact build_congr (h.looksLike h_decode h_alike h_image h_image' h_inside h_inside') config

/-- The graph of `memberless` stays if all its ranges start at `-1` and all arrays of the roots at
an address that is not mapped. If all its ranges start at 5, the definition overshoots. -/
theorem TypeGraph.empty_starts_ignored_memberless :
    (∃ m m', Metadata.decode (Draft.memberless 0).blob (.rootsOnly 0) (Draft.memberless 0).pair =
        .ok m ∧
      Metadata.decode (Draft.memberless (2 ^ 32 - 1)).blob (.rootsOnly 7)
        (Draft.memberless 0).pair = .ok m' ∧
      m.typeDefinitions.map (·.fieldStart) = #[0] ∧
      m'.typeDefinitions.map (·.fieldStart) = #[-1] ∧
      ∀ config, build m' config = build m config) ∧
    ∃ m row, Metadata.decode (Draft.memberless 5).blob (.rootsOnly 7) (Draft.memberless 0).pair =
        .ok m ∧
      m.typeDefinition 0 = .ok row ∧ m.Overshoots row ∧
      ∀ config id c, (build m config).class? id = some c → c.definition ≠ 0 := by
  obtain ⟨tables, h_tables, -⟩ := Registration.read_rootsOnly 0 (by decide)
  obtain ⟨tables', h_tables', -⟩ := Registration.read_rootsOnly 7 (by decide)
  have h_last : 2 ^ 32 - 1 ∈ Draft.someStarts := by decide
  constructor
  · obtain ⟨m, row, container, h_decode, -, h_rows, h_field, h_index, h_containers, -, h_start,
      -⟩ := Draft.decode_memberless (show 0 ∈ Draft.someStarts by decide) h_tables
    obtain ⟨m', row', container', h_decode', -, h_rows', h_field', h_index', h_containers', -,
      h_start', -⟩ := Draft.decode_memberless h_last h_tables'
    have h_graphs := (empty_starts_ignored (inputsAlike_memberless h_last)).1.rel h_decode h_decode'
    refine ⟨m, m', h_decode, h_decode', ?_, ?_, h_graphs ?_ ?_⟩
    · rw [h_rows, Array.map_singleton, h_field]
      decide
    · rw [h_rows', Array.map_singleton, h_field']
      decide
    · exact Metadata.not_overshoots h_rows h_index h_containers (h_start ▸ by decide)
    · exact Metadata.not_overshoots h_rows' h_index' h_containers' (h_start' ▸ by decide)
  · obtain ⟨m, row, container, h_decode, -, h_rows, -, h_index, h_containers, h_count, h_start,
      h_parameters⟩ := Draft.decode_memberless (show 5 ∈ Draft.someStarts by decide) h_tables'
    have h_row : m.typeDefinition 0 = .ok row := by
      rw [Metadata.typeDefinition, h_rows]
      rfl
    have h_over : m.Overshoots row := by
      refine ⟨0, container, 5, h_index, ?_, h_count, h_start, ?_⟩
      · rw [h_containers]
        rfl
      · rw [h_parameters]
        decide
    have h_lost := (empty_starts_ignored (inputsAlike_memberless h_last)).2 m 0 row h_row h_over
    exact ⟨m, row, h_decode, h_row, h_over, h_lost⟩

end GlobalMetadata
