import GlobalMetadata.Graph.Resolver
import GlobalMetadata.Proofs.Footprint
import GlobalMetadata.Proofs.Nest
import Mathlib.Order.Bounds.Basic

/-!
# Descriptors by position and by address

What the registration tables say about types is kept in parallel: the decoded descriptors, the
addresses that they were read from, and the first position of each address. A descriptor is then
asked for by position or by address, and an address that is not in the table is followed into the
image. Addresses may be listed more than once, and descriptors may lie on top of each other.

Nobody can tell the difference from an image that is decoded again each time, and that is what is
shown here.

* An index that is filled in one pass, in which an address keeps the position that it has, leads
  from every address to its first position (`Registration.Positions.getElem?_gather`).
* A descriptor that is found in the table is the one at its address, because table and image are
  read by the same layout (`Registration.typeAt_of_read`).
* So a type has the same id by position and by address
  (`Registration.descriptors_coherent`).
-/

namespace GlobalMetadata.Registration

/-! ### First positions -/

/-- Positions, found by address. -/
abbrev Positions :=
  Std.ExtTreeMap Nat Nat

/-- **One pass.** The index with some more addresses, which stand from `position` on. An address
that is there already keeps its position. -/
def Positions.gather (index : Positions) (position : Nat) : List Nat → Positions
  | [] => index
  | address :: rest => gather (index.insertIfNew address position) (position + 1) rest

/-- What is gathered is the first position of each address, unless it had one before. -/
theorem Positions.getElem?_gather (index : Positions) (position : Nat) (addresses : List Nat)
    (address : Nat) : (index.gather position addresses)[address]? =
      index[address]?.or ((addresses.findIdx? (· = address)).map (position + ·)) := by
  induction addresses generalizing index position with
  | nil => simp [gather]
  | cons first rest ih =>
    rw [gather, ih, Std.ExtTreeMap.getElem?_insertIfNew, List.findIdx?_cons]
    by_cases h_first : first = address
    · subst h_first
      by_cases h_known : first ∈ index
      · -- the new position is passed over
        simp [h_known]
      · simp [h_known]
    · have h_shift (i : Nat) : position + 1 + i = position + (i + 1) := by omega
      simp [h_first, Function.comp_def, h_shift]

variable {source : RegistrationSource} {pair : VersionPair} {tables : Registration}
  {address i : Nat}

theorem typeIndexOf_eq_findIdx? (tables : Registration) (address : Nat) :
    tables.typeIndexOf address = tables.typeAddresses.toList.findIdx? (· = address) := by
  rw [typeIndexOf, ← List.findIdx?_toArray, Array.toArray_toList]

/-- An address leads to the least position at which it stands. -/
theorem typeIndexOf_eq_some_iff : tables.typeIndexOf address = some i ↔
    IsLeast {i | tables.typeAddresses[i]? = some address} i := by
  rw [typeIndexOf, Array.findIdx?_eq_some_iff_getElem]
  constructor
  · rintro ⟨h_i, h_address, h_before⟩
    refine ⟨Array.getElem?_eq_some_iff.mpr ⟨h_i, of_decide_eq_true h_address⟩, fun j h_j => ?_⟩
    obtain ⟨h_inside, h_same⟩ := Array.getElem?_eq_some_iff.mp h_j
    exact Nat.not_lt.mp fun h_lt => h_before j h_lt (decide_eq_true h_same)
  · rintro ⟨h_address, h_least⟩
    obtain ⟨h_i, h_same⟩ := Array.getElem?_eq_some_iff.mp h_address
    refine ⟨h_i, decide_eq_true h_same, fun j h_j h_found => Nat.not_le.mpr h_j (h_least ?_)⟩
    exact Array.getElem?_eq_some_iff.mpr ⟨_, of_decide_eq_true h_found⟩

theorem typeIndexOf_eq_none_iff :
    tables.typeIndexOf address = none ↔ address ∉ tables.typeAddresses := by
  rw [typeIndexOf, Array.findIdx?_eq_none_iff]
  constructor
  · intro h h_mem
    exact of_decide_eq_false (h address h_mem) rfl
  · intro h other h_other
    exact decide_eq_false fun h_same => h (h_same ▸ h_other)

/-! ### Descriptors -/

/-- What is read from an array of addresses stands in its order. -/
theorem forall₂_of_readLinked {α : Type} {image : Image} {array : NativeArray}
    {read : Nat → Except Error α} {entries : Array α}
    (h : readLinked image array read = .ok entries) :
    ∃ addresses, image.pointers array.address array.count = .ok addresses ∧
      List.Forall₂ (fun address entry => read address = .ok entry) addresses entries.toList := by
  obtain ⟨addresses, h_addresses, h⟩ := except_bind_eq_ok_iff.mp h
  obtain ⟨found, h_found, h⟩ := except_bind_eq_ok_iff.mp h
  cases h
  exact ⟨addresses, h_addresses, forall₂_of_mapM_eq_ok h_found⟩

/-- The tables of types and of argument lists hold what is at the addresses of their arrays, and
what is followed later is read by the same layouts. -/
structure DecodedFrom (source : RegistrationSource) (pair : VersionPair) (tables : Registration) :
    Prop where
  image_eq : tables.image = source.image
  descriptor_eq :
    RecordKind.typeDescriptor.resolve pair source.image.pointerWidth = .ok tables.layouts.descriptor
  inst_eq :
    RecordKind.genericInst.resolve pair source.image.pointerWidth = .ok tables.layouts.genericInst
  types : List.Forall₂
    (fun address d => readDescriptor source.image tables.layouts.descriptor address = .ok d)
    tables.typeAddresses.toList tables.types.toList
  insts : ∃ addresses, source.image.pointers tables.metadata.genericInsts.address
      tables.metadata.genericInsts.count = .ok addresses ∧
    List.Forall₂
      (fun address inst => readInst source.image tables.layouts.genericInst address = .ok inst)
      addresses tables.genericInsts.toList

theorem decodedFrom_of_read (h : read source pair = .ok tables) :
    tables.DecodedFrom source pair := by
  rw [read_eq] at h
  -- the roots
  iterate 2 obtain ⟨_, -, h⟩ := except_bind_eq_ok_iff.mp h
  obtain ⟨descriptorLayout, h_descriptorLayout, h⟩ := except_bind_eq_ok_iff.mp h
  obtain ⟨_, -, h⟩ := except_bind_eq_ok_iff.mp h
  obtain ⟨instLayout, h_instLayout, h⟩ := except_bind_eq_ok_iff.mp h
  -- the layout of array shapes and the addresses
  iterate 2 obtain ⟨_, -, h⟩ := except_bind_eq_ok_iff.mp h
  obtain ⟨types, h_types, h⟩ := except_bind_eq_ok_iff.mp h
  obtain ⟨_, -, h⟩ := except_bind_eq_ok_iff.mp h
  obtain ⟨genericInsts, h_genericInsts, h⟩ := except_bind_eq_ok_iff.mp h
  -- methods and modules
  iterate 6 obtain ⟨_, -, h⟩ := except_bind_eq_ok_iff.mp h
  cases h
  exact
    { image_eq := rfl
      descriptor_eq := h_descriptorLayout
      inst_eq := h_instLayout
      types := forall₂_of_mapM_eq_ok h_types
      insts := forall₂_of_readLinked h_genericInsts }

namespace DecodedFrom

variable (h : tables.DecodedFrom source pair)

include h

theorem size_eq : tables.types.size = tables.typeAddresses.size :=
  h.types.length_eq.symm

/-- What is in the table at a position is what is in the image at the address there. -/
theorem exists_type (h_address : tables.typeAddresses[i]? = some address) :
    ∃ d, tables.types[i]? = some d ∧
      readDescriptor source.image tables.layouts.descriptor address = .ok d := by
  obtain ⟨h_i, rfl⟩ := Array.getElem?_eq_some_iff.mp h_address
  have h_types : i < tables.types.size := h.size_eq ▸ h_i
  exact ⟨_, Array.getElem?_eq_getElem h_types, h.types.get h_i h_types⟩

/-- **Following an address** is decoding what is there, whether or not the table has it. -/
theorem typeAt_eq (address : Nat) :
    tables.typeAt address = readDescriptor source.image tables.layouts.descriptor address := by
  unfold typeAt
  cases h_index : tables.typeIndexOf address with
  | none =>
    rw [h.image_eq]
    rfl
  | some i =>
    obtain ⟨d, h_d, h_read⟩ := h.exists_type (typeIndexOf_eq_some_iff.mp h_index).1
    rw [h_read, Option.bind_eq_bind, Option.bind_some, h_d]

theorem genericInstAt_eq (address : Nat) :
    tables.genericInstAt address =
      readInst source.image tables.layouts.genericInst address := by
  rw [genericInstAt, h.image_eq]

/-- The table of argument lists has what is at the addresses of its array. -/
theorem exists_insts : ∃ addresses,
    source.image.pointers tables.metadata.genericInsts.address
      tables.metadata.genericInsts.count = .ok addresses ∧
    addresses.length = tables.genericInsts.size ∧
    ∀ (k : Nat) address, addresses[k]? = some address →
      ∃ inst, tables.genericInsts[k]? = some inst ∧ tables.genericInstAt address = .ok inst := by
  obtain ⟨addresses, h_addresses, h_insts⟩ := h.insts
  refine ⟨addresses, h_addresses, h_insts.length_eq, fun k address h_k => ?_⟩
  obtain ⟨h_inside, rfl⟩ := List.getElem?_eq_some_iff.mp h_k
  have h_entry : k < tables.genericInsts.size := Nat.lt_of_lt_of_eq h_inside h_insts.length_eq
  exact ⟨_, Array.getElem?_eq_getElem h_entry,
    (h.genericInstAt_eq _).trans (h_insts.get h_inside h_entry)⟩

theorem descriptor_eq_typeAt {m : Metadata} (h_tables : m.registration = tables)
    (h_address : tables.typeAddresses[i]? = some address) :
    m.descriptor i = m.registration.typeAt address := by
  obtain ⟨d, h_d, h_read⟩ := h.exists_type h_address
  rw [h_tables, h.typeAt_eq, h_read, Metadata.descriptor, h_tables, h_d]

/-- A type is resolved in the same way by position and by address. -/
theorem type_index_eq {m : Metadata} (h_tables : m.registration = tables)
    (h_address : tables.typeAddresses[i]? = some address) (config : Config) (resolver : Resolver)
    (scope : GenericScope) :
    resolver.type m config (.index i) scope = resolver.type m config (.address address) scope := by
  rw [Resolver.type, Resolver.type, Resolving.type, Resolving.type, Resolving.typeIndex,
    h.descriptor_eq_typeAt h_tables h_address]

end DecodedFrom

/-! ### The result -/

/-- **The tables of types agree with each other and with the image.** Whenever the tables can be
read,

* there is one descriptor for each address; an address leads to the least position at which it
  stands, or to none, and so it does in an index that is filled in one pass;
* at every address there is what decoding the image gives, be it a descriptor or an error, and the
  same holds for lists of arguments;
* the table of argument lists has what is at the addresses of its array;
* a type is resolved to the same by its position and by the address there, in any state and scope,
  and leaves the same state behind. -/
theorem descriptors_coherent (h : read source pair = .ok tables) :
    tables.types.size = tables.typeAddresses.size ∧
    (∀ address i, tables.typeIndexOf address = some i ↔
      IsLeast {i | tables.typeAddresses[i]? = some address} i) ∧
    (∀ address, tables.typeIndexOf address = none ↔ address ∉ tables.typeAddresses) ∧
    (∀ address, (Positions.gather ∅ 0 tables.typeAddresses.toList)[address]? =
      tables.typeIndexOf address) ∧
    (∃ layout, RecordKind.typeDescriptor.resolve pair source.image.pointerWidth = .ok layout ∧
      ∀ address, tables.typeAt address = readDescriptor source.image layout address) ∧
    (∃ layout, RecordKind.genericInst.resolve pair source.image.pointerWidth = .ok layout ∧
      ∀ address, tables.genericInstAt address = readInst source.image layout address) ∧
    (∃ addresses, source.image.pointers tables.metadata.genericInsts.address
        tables.metadata.genericInsts.count = .ok addresses ∧
      addresses.length = tables.genericInsts.size ∧
      ∀ (k : Nat) address, addresses[k]? = some address →
        ∃ inst, tables.genericInsts[k]? = some inst ∧ tables.genericInstAt address = .ok inst) ∧
    ∀ m : Metadata, m.registration = tables → ∀ i address,
      tables.typeAddresses[i]? = some address → ∀ config (resolver : Resolver) scope,
        resolver.type m config (.index i) scope =
          resolver.type m config (.address address) scope := by
  have h_decoded := decodedFrom_of_read h
  refine ⟨h_decoded.size_eq, fun _ _ => typeIndexOf_eq_some_iff, fun _ => typeIndexOf_eq_none_iff,
    fun address => ?_, ⟨_, h_decoded.descriptor_eq, h_decoded.typeAt_eq⟩,
    ⟨_, h_decoded.inst_eq, h_decoded.genericInstAt_eq⟩, h_decoded.exists_insts,
    fun m h_tables i address h_address => h_decoded.type_index_eq h_tables h_address⟩
  rw [Positions.getElem?_gather, typeIndexOf_eq_findIdx?]
  simp

end GlobalMetadata.Registration

namespace GlobalMetadata

/-- An image with two roots, three descriptors that overlap, the addresses of the first two of them,
one of which is listed twice, and the addresses of two lists of arguments. The third descriptor is
not listed, and its kind is unknown. -/
def RegistrationSource.overlapping : RegistrationSource :=
  let roots := List.replicate 16 0 ++ [0, 0, 2, 0x109C, 0, 0, 3, 0x1090] ++ List.replicate 8 0
  let descriptors := [5, 0x120000, 0x80000, 0x170000]
  let addresses := [0x1080, 0x1084, 0x1080, 0x1000, 0x1048]
  let bytes := (roots ++ descriptors ++ addresses).flatMap (Endian.little.encode 4)
  ⟨⟨.flat, ⟨bytes.toArray⟩, [⟨0x1000, 0, 164⟩], .bits32, .little⟩, 0x1000, 0x1040⟩

/-- The address that is listed twice leads to its first position, the descriptor at the last
position is resolved like the one at this address, and the error of the unlisted one is that of
decoding it. -/
theorem Registration.descriptors_coherent_overlapping :
    ∃ tables, read .overlapping (.uniform ⟨29, 0⟩) = .ok tables ∧
      tables.typeAddresses = #[0x1080, 0x1084, 0x1080] ∧ tables.typeIndexOf 0x1080 = some 0 ∧
      (∃ layout, tables.typeAt 0x1088 =
          readDescriptor RegistrationSource.overlapping.image layout 0x1088 ∧
        (tables.typeAt 0x1088).toOption = none) ∧
      (∃ inst, tables.genericInsts[1]? = some inst ∧ tables.genericInstAt 0x1048 = .ok inst) ∧
      ∀ (resolver : Resolver) scope,
        let m : Metadata := { Metadata.bare with registration := tables }
        resolver.type m .minimal (.index 2) scope =
          resolver.type m .minimal (.address 0x1080) scope := by
  have h_shown : (read .overlapping (.uniform ⟨29, 0⟩)).toOption.map (fun tables =>
      (tables.typeAddresses, (tables.typeAt 0x1088).toOption,
        (RegistrationSource.overlapping.image.pointers tables.metadata.genericInsts.address
          tables.metadata.genericInsts.count).toOption)) =
      some (#[0x1080, 0x1084, 0x1080], none, some [0x1000, 0x1048]) := by
    decide +kernel
  obtain ⟨tables, h_read, h_shown⟩ := Option.map_eq_some_iff.mp h_shown
  rw [toOption_eq_some_iff] at h_read
  simp only [Prod.mk.injEq, toOption_eq_some_iff] at h_shown
  obtain ⟨h_addresses, h_unknown, h_pointers⟩ := h_shown
  obtain ⟨-, h_index, -, -, ⟨layout, -, h_decoded⟩, -, ⟨lists, h_lists, -, h_insts⟩, h_type⟩ :=
    descriptors_coherent h_read
  cases h_pointers.symm.trans h_lists
  refine ⟨tables, h_read, h_addresses, (h_index _ _).mpr ?_, ⟨layout, h_decoded _, h_unknown⟩,
    h_insts 1 0x1048 rfl, fun resolver scope => ?_⟩
  · rw [h_addresses]
    exact ⟨rfl, fun _ _ => Nat.zero_le _⟩
  · exact h_type { Metadata.bare with registration := tables } rfl 2 0x1080
      (by rw [h_addresses]; rfl) .minimal resolver scope

end GlobalMetadata
