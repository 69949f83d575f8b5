import GlobalMetadata.Proofs.Decoding

/-!
# What reading the registration tables can end with

Reading an image follows addresses and counts that the image itself gives, so that much can go
wrong: an address stands for nothing, an array is longer than the file, a text is no text
(`Error.OfData`). For supported versions nothing else can (`Registration.raises_read`).

In particular, no record is asked for a field that it lacks. A record has the fields of its kind for
the pair of versions that it was read for (`Record.IsOf`), and these are enough for the conversion
(`RecordKind.Converts`):

* most of what a conversion asks for are permanent fields;
* an array that comes and goes is asked for by the count, and its address comes and goes with it
  (`RecordKind.Accompanies`);
* an instantiated type has one of two fields in every supported version
  (`Record.IsOf.mem_definition`).
-/

namespace GlobalMetadata

/-! ### Records of a kind -/

/-- The record has the fields of its kind for a pair of supported versions. -/
structure Record.IsOf (record : Record) (kind : RecordKind) (pair : VersionPair) : Prop where
  supported : pair.isSupported = true
  fields_eq : record.fields = ((Layout.of kind).present pair).map (·.field)

/-- Wherever the first field is declared, the second one is too, with the same windows. -/
def RecordKind.Accompanies (kind : RecordKind) (first second : Field) : Prop :=
  ∀ spec ∈ kind.fields, spec.field = first →
    ∃ other ∈ kind.fields, other.field = second ∧ other.windows = spec.windows

instance (kind : RecordKind) (first second : Field) : Decidable (kind.Accompanies first second) :=
  inferInstanceAs (Decidable (∀ spec ∈ kind.fields, _))

namespace Record.IsOf

variable {record : Record} {kind : RecordKind} {pair : VersionPair}

theorem has_permanent (h : record.IsOf kind pair) : record.Has kind.permanent := by
  refine Record.has_of_forall_mem fun field h_field => ?_
  rw [h.fields_eq]
  exact RecordKind.mem_present_of_permanent h_field pair

/-- A field brings along those that have the same windows. -/
theorem mem_of_accompanies (h : record.IsOf kind pair) {first second : Field}
    (h_same : kind.Accompanies first second) (h_first : first ∈ record.fields) :
    second ∈ record.fields := by
  rw [h.fields_eq] at h_first ⊢
  obtain ⟨spec, h_spec, h_name⟩ := List.mem_map.mp h_first
  obtain ⟨h_declared, h_present⟩ := List.mem_filter.mp h_spec
  obtain ⟨other, h_other, h_second, h_windows⟩ := h_same spec h_declared h_name
  refine List.mem_map.mpr ⟨other, List.mem_filter.mpr ⟨h_other, ?_⟩, h_second⟩
  unfold FieldSpec.isPresent
  rw [h_windows]
  exact h_present

/-- An instantiated type names its definition in every supported version, one way or the other. -/
theorem mem_definition (h : record.IsOf .genericClass pair) :
    .type ∈ record.fields ∨ .typeDefinitionIndex ∈ record.fields := by
  have h_all : ∀ version ∈ Version.supported,
      let fields := ((Layout.of .genericClass).present (.uniform version)).map (·.field)
      .type ∈ fields ∨ .typeDefinitionIndex ∈ fields := by
    decide
  have h_present : (Layout.of .genericClass).present pair =
      (Layout.of .genericClass).present (.uniform pair.registration) :=
    RecordKind.present_congr rfl
  obtain ⟨-, h_registration⟩ := Bool.and_eq_true_iff.mp h.supported
  rw [h.fields_eq, h_present]
  exact h_all pair.registration (List.contains_iff_mem.mp h_registration)

/-- Without the one field there is the other. -/
theorem exists_definitionIndex (h : record.IsOf .genericClass pair)
    (h_type : record.get? .type = none) : ∃ value, record.get .typeDefinitionIndex = .ok value := by
  have h_index : record.Has [.typeDefinitionIndex] := by
    refine has_of_forall_mem fun field h_field => ?_
    rw [List.mem_singleton.mp h_field]
    refine h.mem_definition.resolve_left fun h_mem => ?_
    have h_some := isSome_get?_iff.mpr h_mem
    rw [h_type] at h_some
    cases h_some
  exact ⟨_, get_eq_value h_index List.mem_cons_self⟩

end Record.IsOf

/-! Records that are read through the layout of a kind are of that kind. -/

section Layouts

variable {kind : RecordKind} {pair : VersionPair} {width : PointerWidth} {layout : ResolvedLayout}

theorem ResolvedLayout.isOf_of_read (h_layout : kind.resolve pair width = .ok layout)
    {endian : Endian} {bytes : List UInt8} {record : Record}
    (h : layout.read endian bytes = .ok record) : record.IsOf kind pair := by
  obtain ⟨h_supported, rfl⟩ := RecordKind.resolve_eq_ok_iff.mp h_layout
  unfold ResolvedLayout.read at h
  split at h
  next => cases h
  next =>
    cases h
    exact ⟨h_supported, fields_entriesOf width endian _ bytes⟩

theorem Image.isOf_of_record (h_layout : kind.resolve pair width = .ok layout) {image : Image}
    {address : Nat} {record : Record} (h : image.record layout address = .ok record) :
    record.IsOf kind pair := by
  obtain ⟨offset, -, h_record⟩ := except_bind_eq_ok_iff.mp h
  obtain ⟨bytes, -, h_read⟩ := ResolvedLayout.readAt_eq_ok_iff.mp h_record
  exact ResolvedLayout.isOf_of_read h_layout h_read

theorem Image.isOf_of_mem_records (h_layout : kind.resolve pair width = .ok layout) {image : Image}
    {address count : Nat} {records : List Record}
    (h : image.records layout address count = .ok records) :
    ∀ record ∈ records, record.IsOf kind pair := by
  have h_none {records : List Record} (h_nil : (.ok [] : Except Error (List Record)) = .ok records)
      (record : Record) (h_record : record ∈ records) : record.IsOf kind pair := by
    cases h_nil
    exact absurd h_record List.not_mem_nil
  unfold Image.records at h
  split at h
  next => exact h_none h
  next =>
    obtain ⟨offset, -, h_array⟩ := except_bind_eq_ok_iff.mp h
    unfold ResolvedLayout.readArray at h_array
    split at h_array
    next => cases h_array
    next =>
      split at h_array
      next => exact h_none h_array
      next =>
        -- each record is read from its own piece
        intro record h_record
        obtain ⟨piece, -, h_read⟩ := exists_of_mem_of_mapM_eq_ok h_array record h_record
        exact ResolvedLayout.isOf_of_read h_layout h_read

end Layouts

/-! ### Conversions -/

/-- Every record of the kind converts, whatever its values. -/
def RecordKind.Converts {α : Type} (kind : RecordKind) (ofRecord : Record → Except Error α) :
    Prop :=
  ∀ {record : Record} {pair : VersionPair}, record.IsOf kind pair →
    ∃ a, ofRecord record = .ok a

theorem converts_row (α : Type) [Row α] [LawfulRow α] :
    (Row.kind α).Converts (Row.ofRecord (α := α)) := by
  intro record pair h
  obtain ⟨row, h_row, -⟩ := LawfulRow.converts (α := α) record h.has_permanent record.version
  exact ⟨row, h_row⟩

section Conversions

open Record

theorem converts_genericInst : RecordKind.genericInst.Converts GenericInst.ofRecord := by
  intro record pair h
  simp (disch := decide) only [GenericInst.ofRecord, get_eq_value h.has_permanent]
  exact ⟨_, rfl⟩

theorem converts_arrayShape : RecordKind.arrayType.Converts ArrayShape.ofRecord := by
  intro record pair h
  simp (disch := decide) only [ArrayShape.ofRecord, uint8, get_eq_value h.has_permanent]
  exact ⟨_, rfl⟩

theorem converts_methodSpec : RecordKind.methodSpec.Converts MethodSpec.ofRecord := by
  intro record pair h
  simp (disch := decide) only [MethodSpec.ofRecord, int32, get_eq_value h.has_permanent]
  exact ⟨_, rfl⟩

theorem converts_genericMethod :
    RecordKind.genericMethodFunctions.Converts GenericMethod.ofRecord := by
  intro record pair h
  simp (disch := decide) only [GenericMethod.ofRecord, int32, get_eq_value h.has_permanent]
  exact ⟨_, rfl⟩

/-- An array is described by permanent fields. -/
theorem converts_nativeArray {kind : RecordKind} {counter base : Field}
    (h_counter : counter ∈ kind.permanent) (h_base : base ∈ kind.permanent) :
    kind.Converts fun record => NativeArray.ofRecord record counter base := by
  intro record pair h
  simp only [NativeArray.ofRecord, get_eq_value h.has_permanent h_counter,
    get_eq_value h.has_permanent h_base]
  exact ⟨_, rfl⟩

/-- An array that comes and goes is described by fields that come and go together. -/
theorem converts_nativeArray? {kind : RecordKind} {counter base : Field}
    (h_same : kind.Accompanies counter base) :
    kind.Converts fun record => NativeArray.ofRecord? record counter base := by
  intro record pair h
  dsimp only
  unfold NativeArray.ofRecord?
  split
  next h_contains =>
    obtain ⟨entry, h_entry, h_name⟩ := List.any_eq_true.mp h_contains
    have h_counter : counter ∈ record.fields :=
      List.mem_map.mpr ⟨entry, h_entry, of_decide_eq_true h_name⟩
    have h_has : record.Has [counter, base] := by
      refine has_of_forall_mem fun field h_field => ?_
      rcases List.mem_cons.mp h_field with rfl | h_field
      · exact h_counter
      · rw [List.mem_singleton.mp h_field]
        exact h.mem_of_accompanies h_same h_counter
    simp only [NativeArray.ofRecord, get_eq_value h_has List.mem_cons_self,
      get_eq_value h_has (List.mem_cons_of_mem counter List.mem_cons_self)]
    exact ⟨_, rfl⟩
  next => exact ⟨none, rfl⟩

theorem converts_codeRegistration :
    RecordKind.codeRegistration.Converts CodeRegistration.ofRecord := by
  intro record pair h
  refine exists_bind_eq_ok (converts_nativeArray? (by decide) h) fun _ => ?_
  iterate 2 refine exists_bind_eq_ok (converts_nativeArray (by decide) (by decide) h) fun _ => ?_
  exact exists_bind_eq_ok (converts_nativeArray? (by decide) h) fun _ => ⟨_, rfl⟩

theorem converts_metadataRegistration :
    RecordKind.metadataRegistration.Converts MetadataRegistration.ofRecord := by
  intro record pair h
  iterate 7 refine exists_bind_eq_ok (converts_nativeArray (by decide) (by decide) h) fun _ => ?_
  exact exists_bind_eq_ok (converts_nativeArray? (by decide) h) fun _ => ⟨_, rfl⟩

end Conversions

/-! ### Following addresses -/

/-- The error says that the data does not hold what is looked for in it. -/
def Error.OfData : Error → Prop
  | .unmapped _ | .malformed _ | .outOfBounds => True
  | _ => False

section Images

variable (image : Image) (layout : ResolvedLayout) (address count : Nat)

theorem raises_readBytes (offset length : Nat) :
    Raises Error.OfData (image.readBytes offset length) := by
  unfold Image.readBytes
  split
  · exact .ok _
  · exact .error trivial

theorem raises_offsetOf : Raises Error.OfData (image.offsetOf address) := by
  unfold Image.offsetOf
  split
  · exact .ok _
  · exact .error trivial

theorem raises_pointers : Raises Error.OfData (image.pointers address count) := by
  unfold Image.pointers
  dsimp only
  split
  · exact .pure _
  · split
    · exact .error trivial
    · refine (raises_offsetOf image address).bind fun offset => ?_
      exact (raises_readBytes image _ _).bind fun _ => .pure _

theorem raises_textBytes (fuel offset : Nat) :
    Raises Error.OfData (image.textBytes fuel offset) := by
  induction fuel generalizing offset with
  | zero => exact .error trivial
  | succ fuel ih =>
    -- a piece ends the text, or the text goes on behind it
    unfold Image.textBytes
    dsimp only
    split
    · rw [pure_bind]
      split
      · exact .pure _
      · exact (ih _).bind fun _ => .pure _
    · refine (raises_readBytes image _ _).bind fun piece => ?_
      split
      · exact .pure _
      · exact (ih _).bind fun _ => .pure _

theorem raises_cString : Raises Error.OfData (image.cString address) := by
  unfold Image.cString
  refine (raises_offsetOf image address).bind fun offset => ?_
  refine (raises_textBytes image _ offset).bind fun bytes => ?_
  split
  · exact .pure _
  · exact .error trivial

theorem raises_read (endian : Endian) (bytes : List UInt8) :
    Raises Error.OfData (layout.read endian bytes) := by
  unfold ResolvedLayout.read
  split
  · exact .error trivial
  · exact .ok _

theorem raises_readAt (data : ByteArray) (endian : Endian) (offset : Nat) :
    Raises Error.OfData (layout.readAt data endian offset) := by
  unfold ResolvedLayout.readAt
  split
  · exact raises_read layout _ _
  · exact .error trivial

theorem raises_record : Raises Error.OfData (image.record layout address) :=
  (raises_offsetOf image address).bind fun _ => raises_readAt layout _ _ _

theorem raises_records : Raises Error.OfData (image.records layout address count) := by
  unfold Image.records
  split
  · exact .pure _
  · refine (raises_offsetOf image address).bind fun offset => ?_
    unfold ResolvedLayout.readArray
    split
    · exact .error trivial
    · split
      · exact .ok _
      · exact .mapM fun piece _ => raises_read layout _ piece

theorem raises_unpack (word datapoint : Nat) :
    Raises Error.OfData (Descriptor.unpack word datapoint) := by
  unfold Descriptor.unpack
  split
  · exact .error trivial
  · exact .ok _

end Images

/-- An instantiated type names a definition, though maybe by a negative index. -/
theorem raises_genericClass {record : Record} {pair : VersionPair}
    (h : record.IsOf .genericClass pair) :
    Raises (fun e => e.isRecoverable = true) (GenericClass.ofRecord record) := by
  have h_get (field : Field) (h_field : field ∈ RecordKind.genericClass.permanent) :
      Raises (fun e => e.isRecoverable = true) (record.get field) :=
    .of_exists_ok ⟨_, Record.get_eq_value h.has_permanent h_field⟩
  have h_definition : Raises (fun e => e.isRecoverable = true)
      (GenericDefinition.ofRecord record) := by
    unfold GenericDefinition.ofRecord
    split
    next => exact .pure _
    next h_type =>
      refine (Raises.of_exists_ok (h.exists_definitionIndex h_type)).map.bind fun value => ?_
      split
      · exact .pure _
      · exact .throw rfl
  refine h_definition.bind fun _ => ?_
  iterate 3 refine (h_get _ (by decide)).bind fun _ => ?_
  exact .pure _

/-! Records that are converted do not add to that, as long as they are of the right kind. -/

section Structures

variable (image : Image) {pair : VersionPair} {width : PointerWidth} {layout : ResolvedLayout}

theorem raises_codeModule {record : Record} (h : record.IsOf .codeGenModule pair) :
    Raises Error.OfData (CodeModule.ofRecord image record) := by
  have h_get (field : Field) (h_field : field ∈ RecordKind.codeGenModule.permanent) :
      Raises Error.OfData (record.get field) :=
    .of_exists_ok ⟨_, Record.get_eq_value h.has_permanent h_field⟩
  refine (h_get _ (by decide)).bind fun name => (raises_cString image name).bind fun _ => ?_
  refine (h_get _ (by decide)).bind fun _ => (h_get _ (by decide)).bind fun _ => ?_
  refine (raises_pointers image _ _).bind fun _ => ?_
  iterate 4 refine (h_get _ (by decide)).bind fun _ => ?_
  exact .pure _

theorem raises_descriptor {record : Record} (h : record.IsOf .typeDescriptor pair) :
    Raises Error.OfData
      (do Descriptor.unpack (← record.uint32 .bits) (← record.get .datapoint)) := by
  have h_has := h.has_permanent
  rw [Record.uint32, Record.get_eq_value h_has (by decide), Record.get_eq_value h_has (by decide)]
  exact raises_unpack _ _

theorem raises_readDescriptor (h : RecordKind.typeDescriptor.resolve pair width = .ok layout)
    (address : Nat) : Raises Error.OfData (Registration.readDescriptor image layout address) :=
  (raises_record image layout address).bind_of_ok fun _ h_record =>
    raises_descriptor (Image.isOf_of_record h h_record)

variable {α : Type} {kind : RecordKind} {ofRecord : Record → Except Error α}

/-- One structure, from its place to its conversion. -/
theorem raises_converted (h : kind.resolve pair width = .ok layout)
    (h_converts : kind.Converts ofRecord) (address : Nat) :
    Raises Error.OfData (image.record layout address >>= ofRecord) :=
  (raises_record image layout address).bind_of_ok fun _ h_record =>
    .of_exists_ok (h_converts (Image.isOf_of_record h h_record))

theorem raises_readInst (h : RecordKind.genericInst.resolve pair width = .ok layout)
    (address : Nat) : Raises Error.OfData (Registration.readInst image layout address) :=
  raises_converted image h converts_genericInst address

variable (array : NativeArray)

theorem raises_readInline (h : kind.resolve pair width = .ok layout)
    (h_converts : kind.Converts ofRecord) :
    Raises Error.OfData (Registration.readInline image layout array ofRecord) := by
  refine (raises_records image layout _ _).bind_of_ok fun records h_records => ?_
  refine (Raises.mapM fun record h_record => ?_).bind fun _ => .pure _
  exact .of_exists_ok (h_converts (Image.isOf_of_mem_records h h_records record h_record))

theorem raises_readLinked {P : Error → Prop} {read : Nat → Except Error α}
    (h_image : ∀ e : Error, e.OfData → P e) (h : ∀ address, Raises P (read address)) :
    Raises P (Registration.readLinked image array read) :=
  ((raises_pointers image _ _).imp h_image).bind fun _ =>
    (Raises.mapM fun address _ => h address).bind fun _ => .pure _

theorem raises_readAddresses (array : Option NativeArray) :
    Raises Error.OfData (Registration.readAddresses image array) := by
  cases array with
  | none => exact .ok _
  | some array => exact raises_readLinked image array (fun _ h => h) fun _ => .ok _

end Structures

/-! ### The registration tables -/

/-- The error says that there are no layouts for the versions, or that the data does not hold what
is looked for in it. -/
def Error.OfTables (pair : VersionPair) (e : Error) : Prop :=
  e = .unsupportedVersion pair ∨ e.OfData

section Tables

variable {pair : VersionPair}

theorem raises_ensureSupported : Raises (Error.OfTables pair) pair.ensureSupported := by
  unfold VersionPair.ensureSupported
  split
  · exact .ok _
  · exact .error (.inl rfl)

theorem raises_resolve (kind : RecordKind) (width : PointerWidth) :
    Raises (Error.OfTables pair) (kind.resolve pair width) :=
  raises_ensureSupported.bind fun _ => .pure _

theorem Raises.ofTables {α : Type} {x : Except Error α} (h : Raises Error.OfData x) :
    Raises (Error.OfTables pair) x :=
  h.imp fun _ => .inr

theorem raises_readModules (image : Image) (array : Option NativeArray) :
    Raises (Error.OfTables pair) (Registration.readModules image pair array) := by
  cases array with
  | none => exact .ok _
  | some array =>
    refine (raises_resolve _ _).bind_of_ok fun layout h_layout => Raises.ofTables ?_
    refine raises_readLinked image array (fun _ h => h) fun address => ?_
    exact (raises_record image layout address).bind_of_ok fun record h_record =>
      raises_codeModule image (Image.isOf_of_record h_layout h_record)

/-- **Reading the tables** fails for versions without layouts, or because of the image. -/
theorem Registration.raises_read (source : RegistrationSource) (pair : VersionPair) :
    Raises (Error.OfTables pair) (Registration.read source pair) := by
  let image := source.image
  -- the two roots
  refine (raises_resolve _ _).bind_of_ok fun layout h_layout => ?_
  refine (raises_record image layout _).ofTables.bind_of_ok fun record h_record => ?_
  have h_code := converts_codeRegistration (Image.isOf_of_record h_layout h_record)
  refine (Raises.of_exists_ok h_code).bind fun code => ?_
  refine (raises_resolve _ _).bind_of_ok fun layout h_layout => ?_
  refine (raises_record image layout _).ofTables.bind_of_ok fun record h_record => ?_
  have h_metadata := converts_metadataRegistration (Image.isOf_of_record h_layout h_record)
  refine (Raises.of_exists_ok h_metadata).bind fun metadata => ?_
  -- the layouts of what is followed later
  refine (raises_resolve _ _).bind_of_ok fun descriptor h_descriptor => ?_
  refine (raises_resolve _ _).bind fun _ => ?_
  refine (raises_resolve _ _).bind_of_ok fun inst h_inst => ?_
  refine (raises_resolve _ _).bind fun _ => ?_
  -- the tables
  refine (raises_readAddresses image _).ofTables.bind fun addresses => ?_
  have h_types : Raises Error.OfData
      (addresses.toList.mapM (readDescriptor image descriptor)) :=
    .mapM fun address _ => raises_readDescriptor image h_descriptor address
  refine h_types.ofTables.bind fun types => ?_
  refine (raises_readAddresses image _).ofTables.bind fun classes => ?_
  have h_insts := raises_readLinked image metadata.genericInsts (fun _ h => h)
    (raises_readInst image h_inst)
  refine h_insts.ofTables.bind fun insts => ?_
  refine (raises_resolve _ _).bind_of_ok fun layout h_layout => ?_
  refine (raises_readInline image _ h_layout converts_methodSpec).ofTables.bind fun specs => ?_
  refine (raises_resolve _ _).bind_of_ok fun layout h_layout => ?_
  refine (raises_readInline image _ h_layout converts_genericMethod).ofTables.bind fun methods => ?_
  refine (raises_readModules image _).bind fun modules => ?_
  exact (raises_readAddresses image _).ofTables.bind fun _ => .pure _

/-- The structures that are followed later are read for the same versions. -/
structure FollowedLayouts.IsFor (layouts : FollowedLayouts) (pair : VersionPair)
    (width : PointerWidth) : Prop where
  descriptor : RecordKind.typeDescriptor.resolve pair width = .ok layouts.descriptor
  genericClass : RecordKind.genericClass.resolve pair width = .ok layouts.genericClass
  genericInst : RecordKind.genericInst.resolve pair width = .ok layouts.genericInst
  arrayType : RecordKind.arrayType.resolve pair width = .ok layouts.arrayType

theorem Registration.isFor_of_read {source : RegistrationSource} {tables : Registration}
    (h : Registration.read source pair = .ok tables) :
    tables.layouts.IsFor pair source.image.pointerWidth := by
  -- the two roots
  iterate 6 obtain ⟨_, -, h⟩ := except_bind_eq_ok_iff.mp h
  -- the layouts of what is followed later
  obtain ⟨descriptor, h_descriptor, h⟩ := except_bind_eq_ok_iff.mp h
  obtain ⟨genericClass, h_genericClass, h⟩ := except_bind_eq_ok_iff.mp h
  obtain ⟨genericInst, h_genericInst, h⟩ := except_bind_eq_ok_iff.mp h
  obtain ⟨arrayType, h_arrayType, h⟩ := except_bind_eq_ok_iff.mp h
  -- the tables
  iterate 10 obtain ⟨_, -, h⟩ := except_bind_eq_ok_iff.mp h
  cases h
  exact ⟨h_descriptor, h_genericClass, h_genericInst, h_arrayType⟩

/-- The tables remember the versions that they were read for. -/
theorem Registration.pair_of_read {source : RegistrationSource} {tables : Registration}
    (h : Registration.read source pair = .ok tables) : tables.pair = pair := by
  iterate 20 obtain ⟨_, -, h⟩ := except_bind_eq_ok_iff.mp h
  cases h
  rfl

/-! ### Following addresses later -/

namespace Registration

variable {tables : Registration} {width : PointerWidth} (h : tables.layouts.IsFor pair width)
  (address : Nat)

include h

theorem raises_typeAt : Raises Error.OfData (tables.typeAt address) := by
  unfold typeAt
  split
  · exact .ok _
  · exact raises_readDescriptor _ h.descriptor address

theorem raises_genericInstAt : Raises Error.OfData (tables.genericInstAt address) :=
  raises_readInst _ h.genericInst address

theorem raises_arrayTypeAt : Raises Error.OfData (tables.arrayTypeAt address) :=
  raises_converted _ h.arrayType converts_arrayShape address

/-- An instantiated type can moreover name a definition that there cannot be. -/
theorem raises_genericClassAt : Raises (fun e => e.isRecoverable = true ∨ e.OfData)
    (tables.genericClassAt address) :=
  ((raises_record _ _ address).imp fun _ => .inr).bind_of_ok fun _ h_record =>
    (raises_genericClass (Image.isOf_of_record h.genericClass h_record)).imp fun _ => .inl

end Registration

end Tables

end GlobalMetadata
