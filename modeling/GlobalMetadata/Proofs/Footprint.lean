import GlobalMetadata.Proofs.Alike
import GlobalMetadata.Proofs.Cause

/-!
# What decoding looks at

In an image, structures refer to each other by address and may lie anywhere, also on top of each
other. So two images can only be compared in what is looked up in them. `RegistrationSource.LooksUp`
lists what reading the registration tables looks up, starting from the two roots; the address of an
array without elements is not among it. What is looked up later, when the links of the tables are
followed, is `Link.lookup?`.

Two inputs are alike (`AlikeInputs`) if the tables of the blobs and everything that is looked up in
the images have records that are alike. Decoding then fails in both with the same error, or gives
metadata that is alike (`both_decode`).
-/

namespace GlobalMetadata

/-! ### Look-ups in an image -/

/-- Something that is looked up in an image. -/
inductive Lookup
  /-- A structure. -/
  | record (kind : RecordKind) (address : Nat)
  /-- Some structures, one after the other. -/
  | records (kind : RecordKind) (address count : Nat)
  /-- Some pointers, one after the other. -/
  | pointers (address count : Nat)
  /-- A text. -/
  | text (address : Nat)

/-- The structure of some kind at an address. -/
def Image.structure (image : Image) (pair : VersionPair) (kind : RecordKind) (address : Nat) :
    Except Error Record :=
  kind.resolve pair image.pointerWidth >>= fun layout => image.record layout address

/-- The structures of some kind from an address on. -/
def Image.structures (image : Image) (pair : VersionPair) (kind : RecordKind)
    (address count : Nat) : Except Error (List Record) :=
  kind.resolve pair image.pointerWidth >>= fun layout => image.records layout address count

/-- A look-up comes to the same in two images, apart from the starts of empty ranges. -/
def Lookup.Alike (pair : VersionPair) (image image' : Image) : Lookup → Prop
  | .record kind address =>
    Both Record.Alike (image.structure pair kind address) (image'.structure pair kind address)
  | .records kind address count =>
    image'.structures pair kind address count = image.structures pair kind address count
  | .pointers address count => image'.pointers address count = image.pointers address count
  | .text address => image'.cString address = image.cString address

namespace RegistrationSource

variable (source : RegistrationSource) (pair : VersionPair)

/-- The root of the code tables. -/
def codeRoot : Except Error CodeRegistration :=
  source.image.structure pair .codeRegistration source.codeRegistration >>=
    CodeRegistration.ofRecord

/-- The root of the type tables. -/
def metadataRoot : Except Error MetadataRegistration :=
  source.image.structure pair .metadataRegistration source.metadataRegistration >>=
    MetadataRegistration.ofRecord

/-- The arrays of addresses that the roots lead to, with the kind of structure that is read at each
of them, if any is. -/
inductive Lists : Option RecordKind → NativeArray → Prop
  | types {root : MetadataRegistration} (read : source.metadataRoot pair = .ok root) :
      Lists (some .typeDescriptor) root.types
  | genericClasses {root : MetadataRegistration} (read : source.metadataRoot pair = .ok root) :
      Lists none root.genericClasses
  | genericInsts {root : MetadataRegistration} (read : source.metadataRoot pair = .ok root) :
      Lists (some .genericInst) root.genericInsts
  | modules {root : CodeRegistration} {array : NativeArray} (read : source.codeRoot pair = .ok root)
      (stored : root.codeGenModules = some array) : Lists (some .codeGenModule) array
  | methodPointers {root : CodeRegistration} {array : NativeArray}
      (read : source.codeRoot pair = .ok root) (stored : root.methodPointers = some array) :
      Lists none array

/-- The arrays of structures that the roots lead to. -/
inductive Inlines : RecordKind → NativeArray → Prop
  | methodSpecs {root : MetadataRegistration} (read : source.metadataRoot pair = .ok root) :
      Inlines .methodSpec root.methodSpecs
  | genericMethods {root : MetadataRegistration} (read : source.metadataRoot pair = .ok root) :
      Inlines .genericMethodFunctions root.genericMethodTable

/-- **What reading the tables looks up.** -/
inductive LooksUp : Lookup → Prop
  /-- The root of the code tables. -/
  | code : LooksUp (.record .codeRegistration source.codeRegistration)
  /-- The root of the type tables. -/
  | metadata : LooksUp (.record .metadataRegistration source.metadataRegistration)
  /-- An array of addresses that is not empty. -/
  | addresses {kind? : Option RecordKind} {array : NativeArray}
      (listed : source.Lists pair kind? array) (some : array.count ≠ 0) :
      LooksUp (.pointers array.address array.count)
  /-- A structure whose address is in such an array. -/
  | element {kind : RecordKind} {array : NativeArray} {addresses : List Nat} {address : Nat}
      (listed : source.Lists pair (some kind) array)
      (read : source.image.pointers array.address array.count = .ok addresses)
      (among : address ∈ addresses) : LooksUp (.record kind address)
  /-- An array of structures that is not empty. -/
  | inline {kind : RecordKind} {array : NativeArray} (inlined : source.Inlines pair kind array)
      (some : array.count ≠ 0) : LooksUp (.records kind array.address array.count)
  /-- The name of a module. -/
  | moduleName {address name : Nat} {record : Record}
      (module : LooksUp (.record .codeGenModule address))
      (read : source.image.structure pair .codeGenModule address = .ok record)
      (stored : record.get .moduleName = .ok name) : LooksUp (.text name)
  /-- The methods of a module, if it has any. -/
  | moduleMethods {address base count : Nat} {record : Record}
      (module : LooksUp (.record .codeGenModule address))
      (read : source.image.structure pair .codeGenModule address = .ok record)
      (stored : record.get .methodPointers = .ok base)
      (counted : record.get .methodPointerCount = .ok count) (some : count ≠ 0) :
      LooksUp (.pointers base count)

end RegistrationSource

/-- What is looked up when a link is followed. The arguments of an empty list are not. -/
def Link.lookup? : Link → Option Lookup
  | .descriptor _ | .generic _ => none
  | .descriptorAt address => some (.record .typeDescriptor address)
  | .genericAt address => some (.record .genericClass address)
  | .list inst => if inst.count = 0 then none else some (.pointers inst.address inst.count)
  | .listAt address => some (.record .genericInst address)
  | .shapeAt address => some (.record .arrayType address)

/-! ### The roots -/

/-- Arrays that are the same, apart from where they start if they have no elements. -/
structure NativeArray.Alike (array array' : NativeArray) : Prop where
  count : array'.count = array.count
  address : array.count = 0 ∨ array'.address = array.address

/-- Roots whose arrays are alike. -/
structure CodeRegistration.Alike (root root' : CodeRegistration) : Prop where
  methodPointers : Option.Rel NativeArray.Alike root.methodPointers root'.methodPointers
  genericMethodPointers : root.genericMethodPointers.Alike root'.genericMethodPointers
  invokerPointers : root.invokerPointers.Alike root'.invokerPointers
  codeGenModules : Option.Rel NativeArray.Alike root.codeGenModules root'.codeGenModules

/-- Roots whose arrays are alike. -/
structure MetadataRegistration.Alike (root root' : MetadataRegistration) : Prop where
  genericClasses : root.genericClasses.Alike root'.genericClasses
  genericInsts : root.genericInsts.Alike root'.genericInsts
  genericMethodTable : root.genericMethodTable.Alike root'.genericMethodTable
  types : root.types.Alike root'.types
  methodSpecs : root.methodSpecs.Alike root'.methodSpecs
  fieldOffsets : root.fieldOffsets.Alike root'.fieldOffsets
  typeDefinitionsSizes : root.typeDefinitionsSizes.Alike root'.typeDefinitionsSizes
  metadataUsages : Option.Rel NativeArray.Alike root.metadataUsages root'.metadataUsages

/-- Argument lists that are the same, apart from where the arguments are if there are none. -/
structure GenericInst.Alike (inst inst' : GenericInst) : Prop where
  count : inst'.count = inst.count
  address : inst.count = 0 ∨ inst'.address = inst.address

section Roots

variable {r r' : Record} (h : r.Alike r')

include h

/-- An array, given by the fields of a range. -/
theorem both_nativeArray {kind : RecordKind} (h_kind : r.kind = kind) {counter base : Field}
    (h_counter : counter ∉ kind.starts)
    (h_range : ∀ range ∈ kind.ranges, range.2 = base → range.1 = counter) :
    Both NativeArray.Alike (NativeArray.ofRecord r counter base)
      (NativeArray.ofRecord r' counter base) := by
  subst h_kind
  unfold NativeArray.ofRecord
  refine .bind_eq (h.get_eq (Record.not_startsEmpty h_counter)) fun count h_count => ?_
  refine (h.both_get base).bind fun address address' _ _ h_address => .pure ⟨rfl, ?_⟩
  rcases h_address with h_same | ⟨c, h_mem, h_zero⟩
  · exact .inr h_same
  · obtain rfl : c = counter := h_range _ h_mem rfl
    rw [Record.get, h_zero] at h_count
    cases h_count
    exact .inl rfl

theorem both_nativeArray? {kind : RecordKind} (h_kind : r.kind = kind) {counter base : Field}
    (h_counter : counter ∉ kind.starts)
    (h_range : ∀ range ∈ kind.ranges, range.2 = base → range.1 = counter) :
    Both (Option.Rel NativeArray.Alike) (NativeArray.ofRecord? r counter base)
      (NativeArray.ofRecord? r' counter base) := by
  unfold NativeArray.ofRecord?
  rw [h.contains_eq counter]
  split
  · exact (both_nativeArray h h_kind h_counter h_range).map fun _ _ h_array => .some h_array
  · exact .ok .none

theorem both_codeRegistration (h_kind : r.kind = .codeRegistration) :
    Both CodeRegistration.Alike (CodeRegistration.ofRecord r) (CodeRegistration.ofRecord r') := by
  unfold CodeRegistration.ofRecord
  refine (both_nativeArray? h h_kind (by decide) (by decide)).bind fun _ _ _ _ h_methods => ?_
  refine (both_nativeArray h h_kind (by decide) (by decide)).bind fun _ _ _ _ h_generic => ?_
  refine (both_nativeArray h h_kind (by decide) (by decide)).bind fun _ _ _ _ h_invokers => ?_
  refine (both_nativeArray? h h_kind (by decide) (by decide)).bind fun _ _ _ _ h_modules => ?_
  exact .pure ⟨h_methods, h_generic, h_invokers, h_modules⟩

theorem both_metadataRegistration (h_kind : r.kind = .metadataRegistration) :
    Both MetadataRegistration.Alike (MetadataRegistration.ofRecord r)
      (MetadataRegistration.ofRecord r') := by
  unfold MetadataRegistration.ofRecord
  refine (both_nativeArray h h_kind (by decide) (by decide)).bind fun _ _ _ _ h_classes => ?_
  refine (both_nativeArray h h_kind (by decide) (by decide)).bind fun _ _ _ _ h_insts => ?_
  refine (both_nativeArray h h_kind (by decide) (by decide)).bind fun _ _ _ _ h_methods => ?_
  refine (both_nativeArray h h_kind (by decide) (by decide)).bind fun _ _ _ _ h_types => ?_
  refine (both_nativeArray h h_kind (by decide) (by decide)).bind fun _ _ _ _ h_specs => ?_
  refine (both_nativeArray h h_kind (by decide) (by decide)).bind fun _ _ _ _ h_offsets => ?_
  refine (both_nativeArray h h_kind (by decide) (by decide)).bind fun _ _ _ _ h_sizes => ?_
  refine (both_nativeArray? h h_kind (by decide) (by decide)).bind fun _ _ _ _ h_usages => ?_
  exact .pure ⟨h_classes, h_insts, h_methods, h_types, h_specs, h_offsets, h_sizes, h_usages⟩

/-- An argument list is an array as well. -/
theorem both_genericInst (h_kind : r.kind = .genericInst) :
    Both GenericInst.Alike (GenericInst.ofRecord r) (GenericInst.ofRecord r') := by
  have h_array (r : Record) : GenericInst.ofRecord r =
      (fun array : NativeArray => ⟨array.count, array.address⟩) <$>
        NativeArray.ofRecord r .typeArgc .typeArgv := by
    simp only [NativeArray.ofRecord, map_bind, map_pure]
    rfl
  rw [h_array, h_array]
  exact (both_nativeArray h h_kind (by decide) (by decide)).map fun _ _ h_same =>
    ⟨h_same.count, h_same.address⟩

end Roots

/-! ### Structures -/

section Structures

variable {image image' : Image} {pair : VersionPair} {kind : RecordKind} {address : Nat}

theorem Image.structure_eq {layout : ResolvedLayout}
    (h : kind.resolve pair image.pointerWidth = .ok layout) (address : Nat) :
    image.structure pair kind address = image.record layout address := by
  rw [Image.structure, h]
  rfl

theorem Image.structures_eq {layout : ResolvedLayout}
    (h : kind.resolve pair image.pointerWidth = .ok layout) (address count : Nat) :
    image.structures pair kind address count = image.records layout address count := by
  rw [structures, h]
  rfl

theorem Image.kind_of_structure {r : Record} (h : image.structure pair kind address = .ok r) :
    r.kind = kind := by
  obtain ⟨layout, h_layout, h_record⟩ := except_bind_eq_ok_iff.mp h
  obtain ⟨-, rfl⟩ := RecordKind.resolve_eq_ok_iff.mp h_layout
  obtain ⟨offset, -, h_record⟩ := except_bind_eq_ok_iff.mp h_record
  obtain ⟨bytes, -, h_read⟩ := ResolvedLayout.readAt_eq_ok_iff.mp h_record
  unfold ResolvedLayout.read at h_read
  split at h_read
  next => cases h_read
  next =>
    cases h_read
    rfl

/-- A structure and its conversion. -/
theorem Lookup.Alike.both_convert {α : Type} {R : α → α → Prop}
    {ofRecord ofRecord' : Record → Except Error α}
    (h : (Lookup.record kind address).Alike pair image image')
    (h_convert : ∀ r r' : Record, image.structure pair kind address = .ok r → r.Alike r' →
      r.kind = kind → Both R (ofRecord r) (ofRecord' r')) :
    Both R (image.structure pair kind address >>= ofRecord)
      (image'.structure pair kind address >>= ofRecord') :=
  Both.bind h fun r r' h_r _ h_alike => h_convert r r' h_r h_alike (Image.kind_of_structure h_r)

/-- The same with the layouts resolved beforehand. -/
theorem Lookup.Alike.both_record {α : Type} {R : α → α → Prop}
    {ofRecord ofRecord' : Record → Except Error α} {layout : ResolvedLayout}
    (h : (Lookup.record kind address).Alike pair image image')
    (h_layout : kind.resolve pair image.pointerWidth = .ok layout)
    (h_width : image'.pointerWidth = image.pointerWidth)
    (h_convert : ∀ r r' : Record, image.structure pair kind address = .ok r → r.Alike r' →
      r.kind = kind → Both R (ofRecord r) (ofRecord' r')) :
    Both R (image.record layout address >>= ofRecord)
      (image'.record layout address >>= ofRecord') := by
  rw [← Image.structure_eq h_layout, ← Image.structure_eq (h_width ▸ h_layout)]
  exact h.both_convert h_convert

/-- A structure without ranges converts to the same. -/
theorem Lookup.Alike.record_eq {layout : ResolvedLayout}
    (h : (Lookup.record kind address).Alike pair image image')
    (h_layout : kind.resolve pair image.pointerWidth = .ok layout)
    (h_width : image'.pointerWidth = image.pointerWidth) (h_none : kind.ranges = [])
    {α : Type} (ofRecord : Record → Except Error α) :
    (image'.record layout address >>= ofRecord) = (image.record layout address >>= ofRecord) := by
  refine (h.both_record h_layout h_width fun r r' _ h_alike h_kind => ?_).eq
  rw [h_alike.eq (h_kind ▸ h_none)]
  exact .of_eq rfl

end Structures

/-! ### Arrays of the image -/

section NativeArrays

variable {image image' : Image} {array array' : NativeArray} (h_array : array.Alike array')
  (h_pointers : array.count ≠ 0 →
    image'.pointers array.address array.count = image.pointers array.address array.count)

include h_array h_pointers

/-- The pointers of an array; an empty one is not looked up. -/
theorem NativeArray.Alike.pointers_eq : image'.pointers array'.address array'.count =
    image.pointers array.address array.count := by
  rw [h_array.count]
  rcases h_array.address with h_zero | h_same
  · rw [h_zero]
    rfl
  · rw [h_same]
    by_cases h_zero : array.count = 0
    · rw [h_zero]
      rfl
    · exact h_pointers h_zero

theorem both_readLinked {α : Type} {R : α → α → Prop} {read read' : Nat → Except Error α}
    (h_each : ∀ addresses, image.pointers array.address array.count = .ok addresses →
      ∀ address ∈ addresses, Both R (read address) (read' address)) :
    Both (fun as as' => List.Forall₂ R as.toList as'.toList)
      (Registration.readLinked image array read) (Registration.readLinked image' array' read') :=
  .bind_eq (h_array.pointers_eq h_pointers) fun addresses h_addresses =>
    (Both.mapM (h_each addresses h_addresses)).bind fun _ _ _ _ h => .pure h

omit h_array h_pointers in
theorem Both.eq_of_forall₂ {α : Type} {x x' : Except Error (Array α)}
    (h : Both (fun as as' => List.Forall₂ (· = ·) as.toList as'.toList) x x') : x' = x :=
  (h.imp fun _ _ h_same => Array.toList_inj.mp (List.forall₂_eq_eq_eq ▸ h_same)).eq

theorem readAddresses_eq : Registration.readAddresses image' (some array') =
    Registration.readAddresses image (some array) :=
  (both_readLinked h_array h_pointers fun _ _ _ _ => .of_eq rfl).eq_of_forall₂

end NativeArrays

/-- An array of structures; an empty one is not looked up. -/
theorem readInline_eq {α : Type} {image image' : Image} {pair : VersionPair} {kind : RecordKind}
    {layout : ResolvedLayout} {array array' : NativeArray}
    (h_width : image'.pointerWidth = image.pointerWidth)
    (h_layout : kind.resolve pair image.pointerWidth = .ok layout) (h_array : array.Alike array')
    (h_records : array.count ≠ 0 →
      (Lookup.records kind array.address array.count).Alike pair image image')
    (ofRecord : Record → Except Error α) :
    Registration.readInline image' layout array' ofRecord =
      Registration.readInline image layout array ofRecord := by
  have h_same : image'.records layout array'.address array'.count =
      image.records layout array.address array.count := by
    rw [h_array.count]
    by_cases h_zero : array.count = 0
    · rw [h_zero]
      rfl
    · rw [h_array.address.resolve_left h_zero, ← Image.structures_eq h_layout,
        ← Image.structures_eq (h_width ▸ h_layout)]
      exact h_records h_zero
  rw [Registration.readInline, Registration.readInline, h_same]

/-! ### The registration tables -/

/-- Registration tables that are the same, apart from the images that they were read from and from
where empty arrays start. -/
structure Registration.Alike (tables tables' : Registration) : Prop where
  others : tables' = { tables with
    image := tables'.image
    code := tables'.code
    metadata := tables'.metadata
    genericInsts := tables'.genericInsts }
  code : tables.code.Alike tables'.code
  metadata : tables.metadata.Alike tables'.metadata
  genericInsts : List.Forall₂ GenericInst.Alike tables.genericInsts.toList
    tables'.genericInsts.toList

section Tables

variable {source source' : RegistrationSource} {pair : VersionPair}

/-- Reading the tables starts with the two roots. -/
theorem Registration.read_eq (source : RegistrationSource) (pair : VersionPair) :
    read source pair = do
      let image := source.image
      let layout (kind : RecordKind) := kind.resolve pair image.pointerWidth
      let code ← source.codeRoot pair
      let metadata ← source.metadataRoot pair
      let layouts : FollowedLayouts :=
        { descriptor := ← layout .typeDescriptor
          genericClass := ← layout .genericClass
          genericInst := ← layout .genericInst
          arrayType := ← layout .arrayType }
      let typeAddresses ← readAddresses image (some metadata.types)
      let types ← typeAddresses.toList.mapM (readDescriptor image layouts.descriptor)
      let genericClasses ← readAddresses image (some metadata.genericClasses)
      let genericInsts ← readLinked image metadata.genericInsts (readInst image layouts.genericInst)
      let methodSpecs ←
        readInline image (← layout .methodSpec) metadata.methodSpecs MethodSpec.ofRecord
      let genericMethods ←
        readInline image (← layout .genericMethodFunctions) metadata.genericMethodTable
          GenericMethod.ofRecord
      let modules ← readModules image pair code.codeGenModules
      let methodPointers ← readAddresses image code.methodPointers
      return ⟨image, pair, code, metadata, types.toArray, typeAddresses, genericClasses,
        genericInsts, methodSpecs, genericMethods, modules, methodPointers, layouts⟩ := by
  simp only [RegistrationSource.codeRoot, RegistrationSource.metadataRoot, Image.structure,
    bind_assoc]
  rfl

/-- What is in a table of addresses are the pointers of its array. -/
theorem Registration.pointers_of_readAddresses {image : Image} {array : NativeArray}
    {addresses : Array Nat} (h : readAddresses image (some array) = .ok addresses) :
    image.pointers array.address array.count = .ok addresses.toList := by
  obtain ⟨found, h_found, h⟩ := except_bind_eq_ok_iff.mp h
  have h_all : found.mapM (.ok : Nat → Except Error Nat) = .ok found :=
    (mapM_eq_ok_map fun _ _ => rfl).trans (congrArg _ (List.map_id found))
  rw [h_all] at h
  cases h
  exact h_found

/-- Sources that are alike: the roots have the same addresses, and whatever reading the tables looks
up comes to the same, apart from the starts of empty ranges. -/
structure RegistrationSource.Alike (pair : VersionPair) (source source' : RegistrationSource) :
    Prop where
  width : source'.image.pointerWidth = source.image.pointerWidth
  code : source'.codeRegistration = source.codeRegistration
  metadata : source'.metadataRegistration = source.metadataRegistration
  lookups : ∀ lookup, source.LooksUp pair lookup → lookup.Alike pair source.image source'.image

variable (h : source.Alike pair source')

include h

theorem both_codeRoot :
    Both CodeRegistration.Alike (source.codeRoot pair) (source'.codeRoot pair) := by
  unfold RegistrationSource.codeRoot
  rw [h.code]
  exact (h.lookups _ .code).both_convert fun _ _ _ h_alike h_kind =>
    both_codeRegistration h_alike h_kind

theorem both_metadataRoot :
    Both MetadataRegistration.Alike (source.metadataRoot pair) (source'.metadataRoot pair) := by
  unfold RegistrationSource.metadataRoot
  rw [h.metadata]
  exact (h.lookups _ .metadata).both_convert fun _ _ _ h_alike h_kind =>
    both_metadataRegistration h_alike h_kind

/-- A listed array is read the same if it is not empty. -/
theorem RegistrationSource.Alike.pointers_eq {kind? : Option RecordKind} {array : NativeArray}
    (h_listed : source.Lists pair kind? array) (h_some : array.count ≠ 0) :
    source'.image.pointers array.address array.count =
      source.image.pointers array.address array.count :=
  h.lookups _ (.addresses h_listed h_some)

/-- One of the structures in a listed array. -/
theorem RegistrationSource.Alike.both_element {α : Type} {R : α → α → Prop}
    {ofRecord ofRecord' : Record → Except Error α} {kind : RecordKind} {array : NativeArray}
    {addresses : List Nat} (h_listed : source.Lists pair (some kind) array)
    (h_read : source.image.pointers array.address array.count = .ok addresses)
    {layout : ResolvedLayout}
    (h_layout : kind.resolve pair source.image.pointerWidth = .ok layout) {address : Nat}
    (h_among : address ∈ addresses)
    (h_convert : ∀ r r' : Record, source.image.structure pair kind address = .ok r → r.Alike r' →
      r.kind = kind → Both R (ofRecord r) (ofRecord' r')) :
    Both R (source.image.record layout address >>= ofRecord)
      (source'.image.record layout address >>= ofRecord') :=
  (h.lookups _ (.element h_listed h_read h_among)).both_record h_layout h.width h_convert

/-- A module, with its name and its methods. -/
theorem RegistrationSource.Alike.codeModule_eq {address : Nat} {r : Record}
    (h_module : source.LooksUp pair (.record .codeGenModule address))
    (h_read : source.image.structure pair .codeGenModule address = .ok r) :
    CodeModule.ofRecord source'.image r = CodeModule.ofRecord source.image r := by
  unfold CodeModule.ofRecord
  refine (Both.bind_eq rfl fun name h_name => ?_).eq
  refine .bind_eq (h.lookups _ (.moduleName h_module h_read h_name)) fun text _ => ?_
  refine .bind_eq rfl fun base h_base => .bind_eq rfl fun count h_count => ?_
  have h_pointers : source'.image.pointers base count = source.image.pointers base count := by
    by_cases h_zero : count = 0
    · rw [h_zero]
      rfl
    · exact h.lookups _ (.moduleMethods h_module h_read h_base h_count h_zero)
  exact .bind_eq h_pointers fun methods _ => .of_eq rfl

theorem readModules_eq {root root' : CodeRegistration} (h_root : source.codeRoot pair = .ok root)
    (h_modules : Option.Rel NativeArray.Alike root.codeGenModules root'.codeGenModules) :
    Registration.readModules source'.image pair root'.codeGenModules =
      Registration.readModules source.image pair root.codeGenModules := by
  have h_listed (array : NativeArray) (h_stored : root.codeGenModules = some array) :
      source.Lists pair (some .codeGenModule) array := .modules h_root h_stored
  generalize root.codeGenModules = modules, root'.codeGenModules = modules' at h_modules h_listed
  cases h_modules with
  | none => rfl
  | @some array array' h_array =>
    refine (Both.bind_eq (congrArg _ h.width) fun layout h_layout => .of_eq ?_).eq
    have h_list := h_listed array rfl
    refine (both_readLinked h_array (h.pointers_eq h_list) fun addresses h_read address h_among =>
      h.both_element h_list h_read h_layout h_among fun r r' h_r h_alike h_kind => ?_).eq_of_forall₂
    rw [h_alike.eq (h_kind ▸ rfl)]
    exact .of_eq (h.codeModule_eq (.element h_list h_read h_among) h_r)

theorem readMethodPointers_eq {root root' : CodeRegistration}
    (h_root : source.codeRoot pair = .ok root)
    (h_methods : Option.Rel NativeArray.Alike root.methodPointers root'.methodPointers) :
    Registration.readAddresses source'.image root'.methodPointers =
      Registration.readAddresses source.image root.methodPointers := by
  have h_listed (array : NativeArray) (h_stored : root.methodPointers = some array) :
      source.Lists pair none array := .methodPointers h_root h_stored
  generalize root.methodPointers = methods, root'.methodPointers = methods' at h_methods h_listed
  cases h_methods with
  | none => rfl
  | @some array array' h_array =>
    exact readAddresses_eq h_array (h.pointers_eq (h_listed array rfl))

/-- **Reading the tables** of sources that are alike fails in both with the same error, or gives
tables that are alike. -/
theorem Registration.both_read : Both
    (fun tables tables' => tables.Alike tables' ∧ tables.image = source.image ∧
      tables'.image = source'.image)
    (read source pair) (read source' pair) := by
  have h_resolve (kind : RecordKind) : kind.resolve pair source'.image.pointerWidth =
      kind.resolve pair source.image.pointerWidth := congrArg _ h.width
  rw [read_eq, read_eq]
  -- the two roots
  refine (both_codeRoot h).bind fun code code' h_code _ h_codes => ?_
  refine (both_metadataRoot h).bind fun metadata metadata' h_metadata _ h_roots => ?_
  -- the layouts of what is followed later
  refine .bind_eq (h_resolve _) fun descriptor h_descriptor => ?_
  refine .bind_eq (h_resolve _) fun genericClass _ => ?_
  refine .bind_eq (h_resolve _) fun genericInst h_genericInst => ?_
  refine .bind_eq (h_resolve _) fun arrayType _ => ?_
  -- the descriptors
  refine .bind_eq (readAddresses_eq h_roots.types (h.pointers_eq (.types h_metadata)))
    fun typeAddresses h_addresses => ?_
  have h_types : Both (List.Forall₂ (· = ·))
      (typeAddresses.toList.mapM (readDescriptor source.image descriptor))
      (typeAddresses.toList.mapM (readDescriptor source'.image descriptor)) := by
    refine .mapM fun address h_among => ?_
    refine h.both_element (.types h_metadata) (pointers_of_readAddresses h_addresses)
      h_descriptor h_among fun r r' _ h_alike h_kind => ?_
    rw [h_alike.eq (h_kind ▸ rfl)]
    exact .of_eq rfl
  refine h_types.bind fun types types' _ _ h_types => ?_
  obtain rfl : types = types' := List.forall₂_eq_eq_eq ▸ h_types
  -- the instantiations and their arguments
  refine .bind_eq (readAddresses_eq h_roots.genericClasses
    (h.pointers_eq (.genericClasses h_metadata))) fun genericClasses _ => ?_
  have h_insts := both_readLinked h_roots.genericInsts (h.pointers_eq (.genericInsts h_metadata))
    fun addresses h_read address h_among => h.both_element (.genericInsts h_metadata) h_read
      h_genericInst h_among fun r r' _ h_alike h_kind => both_genericInst h_alike h_kind
  refine h_insts.bind fun genericInsts genericInsts' _ _ h_insts => ?_
  -- the arrays of structures
  refine .bind_eq (h_resolve _) fun layout h_layout => ?_
  refine .bind_eq (readInline_eq h.width h_layout h_roots.methodSpecs
    (fun h_some => h.lookups _ (.inline (.methodSpecs h_metadata) h_some)) _)
    fun methodSpecs _ => ?_
  refine .bind_eq (h_resolve _) fun layout h_layout => ?_
  refine .bind_eq (readInline_eq h.width h_layout h_roots.genericMethodTable
    (fun h_some => h.lookups _ (.inline (.genericMethods h_metadata) h_some)) _)
    fun genericMethods _ => ?_
  -- compiled code
  refine .bind_eq (readModules_eq h h_code h_codes.codeGenModules) fun modules _ => ?_
  refine .bind_eq (readMethodPointers_eq h h_code h_codes.methodPointers) fun pointers _ => ?_
  exact .pure ⟨⟨rfl, h_codes, h_roots, h_insts⟩, rfl, rfl⟩

end Tables

/-! ### Decoding -/

/-- Bytes of a section that are alike: they hold structures that are alike, or are the same. -/
def Shape.Alike (pair : VersionPair) (bytes bytes' : List UInt8) : Shape → Prop
  | .rows kind => List.Forall₂ Record.Alike (recordsOf kind pair bytes) (recordsOf kind pair bytes')
  | .indices | .bytes => bytes' = bytes

/-- Blobs that are alike: they have the same header, and sections that are alike. -/
structure BlobsAlike (pair : VersionPair) (data data' : ByteArray) : Prop where
  size : data'.size = data.size
  header : Header.read data' pair = Header.read data pair
  sections : ∀ header, Header.read data pair = .ok header → ∀ id : SectionId,
    id.shape.Alike pair (header.bytesOf data id) (header.bytesOf data' id)

namespace Metadata

/-- Metadata that is the same, apart from where empty ranges start. -/
structure Alike (m m' : Metadata) : Prop where
  others : m' = { m with
    typeDefinitions := m'.typeDefinitions
    methods := m'.methods
    genericContainers := m'.genericContainers
    registration := m'.registration }
  typeDefinitions :
    List.Forall₂ TypeDefinition.Alike m.typeDefinitions.toList m'.typeDefinitions.toList
  methods : List.Forall₂ MethodDefinition.Alike m.methods.toList m'.methods.toList
  genericContainers :
    List.Forall₂ GenericContainer.Alike m.genericContainers.toList m'.genericContainers.toList
  registration : m.registration.Alike m'.registration

/-- Decoding, whether or not there is a header. -/
theorem decode_eq_bind (data : ByteArray) (source : RegistrationSource) (pair : VersionPair) :
    decode data source pair = do
      pair.ensureSupported
      let header ← Header.read data pair
      forM SectionId.readingOrder fun id => header.check id data.size
      let registration ← Registration.read source pair
      return ofSections pair header (header.bytesOf data) registration := by
  cases h_supported : pair.ensureSupported with
  | error e =>
    unfold decode
    rw [h_supported]
    rfl
  | ok =>
    cases h_header : Header.read data pair with
    | error e =>
      unfold decode
      rw [h_supported, h_header]
      rfl
    | ok header =>
      rw [decode_eq (VersionPair.ensureSupported_eq_ok_iff.mp h_supported) h_header]
      rfl

/-- Sections that are alike make tables that are alike. -/
theorem alike_ofSections {pair : VersionPair} (header : Header)
    {bytes bytes' : SectionId → List UInt8}
    (h : ∀ id : SectionId, id.shape.Alike pair (bytes id) (bytes' id))
    {registration registration' : Registration}
    (h_registration : registration.Alike registration') :
    (ofSections pair header bytes registration).Alike
      (ofSections pair header bytes' registration') := by
  have h_records (id : SectionId) {kind : RecordKind} (h_shape : id.shape = .rows kind) :
      List.Forall₂ Record.Alike (recordsOf kind pair (bytes id))
        (recordsOf kind pair (bytes' id)) := by
    have h_id := h id
    rw [h_shape] at h_id
    exact h_id
  have h_rows (α : Type) [Row α] (id : SectionId) (h_shape : id.shape = .rows (Row.kind α))
      (h_none : (Row.kind α).ranges = []) :
      rowsOf α pair (bytes' id) = rowsOf α pair (bytes id) :=
    rowsOf_eq h_none (h_records id h_shape)
  have h_indices (id : SectionId) (h_shape : id.shape = .indices) : bytes' id = bytes id := by
    have h_id := h id
    rw [h_shape] at h_id
    exact h_id
  have h_bytes (id : SectionId) (h_shape : id.shape = .bytes) : bytes' id = bytes id := by
    have h_id := h id
    rw [h_shape] at h_id
    exact h_id
  refine ⟨?_, ?_, ?_, ?_, h_registration⟩
  · simp only [ofSections, h_rows StringLiteral .stringLiterals rfl rfl,
      h_rows ImageDefinition .images rfl rfl, h_rows AssemblyDefinition .assemblies rfl rfl,
      h_rows ParameterDefinition .parameters rfl rfl, h_rows FieldDefinition .fields rfl rfl,
      h_rows PropertyDefinition .properties rfl rfl, h_rows EventDefinition .events rfl rfl,
      h_rows GenericParameter .genericParameters rfl rfl,
      h_rows FieldDefaultValue .fieldDefaultValues rfl rfl,
      h_rows ParameterDefaultValue .parameterDefaultValues rfl rfl,
      h_rows FieldMarshaledSize .fieldMarshaledSizes rfl rfl,
      h_rows CustomAttributeTypeRange .attributeTypeRanges rfl rfl,
      h_rows CustomAttributeDataRange .attributeDataRanges rfl rfl,
      h_rows FieldRef .fieldRefs rfl rfl, h_indices .genericParameterConstraints rfl,
      h_indices .nestedTypes rfl, h_indices .interfaces rfl, h_indices .vtableMethods rfl,
      h_indices .attributeTypes rfl, h_indices .referencedAssemblies rfl,
      h_indices .exportedTypeDefinitions rfl, h_bytes .stringLiteralData rfl,
      h_bytes .strings rfl, h_bytes .fieldAndParameterDefaultValueData rfl,
      h_bytes .attributeData rfl]
  · exact forall₂_rowsOf (fun r r' => both_typeDefinition) (h_records .typeDefinitions rfl)
  · exact forall₂_rowsOf (fun r r' => both_methodDefinition) (h_records .methods rfl)
  · exact forall₂_rowsOf (fun r r' => both_genericContainer) (h_records .genericContainers rfl)

/-- **Decoding** inputs that are alike fails in both with the same error, or gives metadata that is
alike. -/
theorem both_decode {data data' : ByteArray} {source source' : RegistrationSource}
    {pair : VersionPair} (h_blob : BlobsAlike pair data data')
    (h_source : source.Alike pair source') :
    Both (fun m m' => m.Alike m' ∧ m.registration.image = source.image ∧
      m'.registration.image = source'.image)
      (decode data source pair) (decode data' source' pair) := by
  rw [decode_eq_bind, decode_eq_bind]
  refine .bind_eq rfl fun _ _ => .bind_eq h_blob.header fun header h_header => ?_
  rw [h_blob.size]
  refine .bind_eq rfl fun _ _ => (Registration.both_read h_source).bind ?_
  rintro tables tables' - - ⟨h_tables, h_image, h_image'⟩
  have h_sections := h_blob.sections header h_header
  exact .pure ⟨alike_ofSections header h_sections h_tables, h_image, h_image'⟩

end Metadata

end GlobalMetadata
