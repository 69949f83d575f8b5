import GlobalMetadata.Proofs.Cause

/-!
# Look-ups and their errors

Whatever a look-up ends with is explained by the stored data (`Metadata.Explains`), as long as the
index or the address that is looked up is stored. There is one lemma for each look-up.

For most indices more is true: the look-up fails exactly if the index points outside of its target,
and then with the error of the index (`StoredIndex.Decides`). Names are different, because their
bytes may be ill-formed.

A type definition is looked up by an index from various places. `Metadata.Names` says that one of
them is to blame should there be no such definition.
-/

namespace GlobalMetadata

/-! ### Reading names -/

namespace Bytes

variable {data : ByteArray} {fuel i stop : Nat}

theorem zeroWithin?_succ (h : i < data.size) : zeroWithin? data (fuel + 1) i =
    if data.get i h = 0 then some i else zeroWithin? data fuel (i + 1) :=
  dif_pos h

theorem zeroWithin?_succ_of_le (h : ¬ i < data.size) : zeroWithin? data (fuel + 1) i = none :=
  dif_neg h

theorem le_of_zeroWithin?_eq_some (h : zeroWithin? data fuel i = some stop) :
    i ≤ stop ∧ stop < data.size := by
  induction fuel generalizing i with
  | zero => cases h
  | succ fuel ih =>
    by_cases h_inside : i < data.size
    · rw [zeroWithin?_succ h_inside] at h
      by_cases h_zero : data.get i h_inside = 0
      · rw [if_pos h_zero] at h
        cases h
        exact ⟨Nat.le_refl _, h_inside⟩
      · rw [if_neg h_zero] at h
        have h_rest := ih h
        exact ⟨by omega, h_rest.2⟩
    · rw [zeroWithin?_succ_of_le h_inside] at h
      cases h

theorem ne_zero_of_zeroWithin?_eq_none (h : zeroWithin? data fuel i = none) (j : Nat)
    (h_j : j < data.size) (h_le : i ≤ j) (h_lt : j < i + fuel) : data.get j h_j ≠ 0 := by
  induction fuel generalizing i with
  | zero => omega
  | succ fuel ih =>
    have h_inside : i < data.size := Nat.lt_of_le_of_lt h_le h_j
    rw [zeroWithin?_succ h_inside] at h
    by_cases h_zero : data.get i h_inside = 0
    · rw [if_pos h_zero] at h
      cases h
    · rw [if_neg h_zero] at h
      -- it is the first byte, or one of those behind it
      rcases Nat.eq_or_lt_of_le h_le with rfl | h_later
      · exact h_zero
      · exact ih h h_later (by omega)

/-- A run has no end only if there is no zero byte in the rest of the data. -/
theorem ne_zero_of_terminated?_eq_none {start : Nat} (h : terminated? data start = none) (j : Nat)
    (h_j : j < data.size) (h_le : start ≤ j) : data.get j h_j ≠ 0 := by
  rw [terminated?] at h
  cases h_stop : zeroWithin? data (data.size - start) start with
  | none => exact ne_zero_of_zeroWithin?_eq_none h_stop j h_j h_le (by omega)
  | some stop =>
    -- what ends inside the data can be read
    have h_bounds := le_of_zeroWithin?_eq_some h_stop
    rw [h_stop] at h
    dsimp only at h
    rw [slice?_eq_some (by omega)] at h
    cases h

end Bytes

variable {m : Metadata}

theorem explains_string {index : Nat} (h : m.Stores (.name index)) :
    Raises m.Explains (m.string index) := by
  unfold Metadata.string StringHeap.get
  split
  next h_outside => exact .error (.outside h h_outside)
  next h_inside =>
    split
    next h_none =>
      exact .error (.unterminated h (Nat.lt_of_not_le h_inside)
        (Bytes.ne_zero_of_terminated?_eq_none h_none))
    next bytes h_bytes =>
      split
      · exact .ok _
      next h_ill => exact .error (.encoding h h_bytes h_ill)

/-! ### Following indices -/

namespace StoredIndex

variable {α : Type} {i : StoredIndex} {x : Except Error α}

/-- A look-up fails exactly if the index points outside of its target, and then it says so. -/
def Decides (i : StoredIndex) (m : Metadata) (x : Except Error α) : Prop :=
  ∀ e, x = .error e ↔ i.IsOutside m ∧ e = i.error m

theorem decides_ok {a : α} (h : ¬ i.IsOutside m) : i.Decides m (.ok a : Except Error α) :=
  fun _ => iff_of_false (fun h_ok => by cases h_ok) fun h_outside => h h_outside.1

theorem decides_error (h : i.IsOutside m) : i.Decides m (.error (i.error m) : Except Error α) := by
  intro e
  constructor
  · intro h_e
    cases h_e
    exact ⟨h, rfl⟩
  · rintro ⟨-, rfl⟩
    rfl

theorem Decides.eq_error (h : i.Decides m x) (h_outside : i.IsOutside m) : x = .error (i.error m) :=
  (h _).mpr ⟨h_outside, rfl⟩

/-- If the index is stored, that explains the error. -/
theorem Decides.explains (h : i.Decides m x) (h_stored : m.Stores i) : Raises m.Explains x := by
  intro e h_e
  obtain ⟨h_outside, rfl⟩ := (h e).mp h_e
  exact .outside h_stored h_outside

theorem Decides.map {β : Type} (h : i.Decides m x) (f : α → β) : i.Decides m (f <$> x) := by
  intro e
  rw [← h e]
  cases x with
  | ok a => exact iff_of_false (fun h_ok => by cases h_ok) fun h_ok => by cases h_ok
  | error e' =>
    show Except.error e' = _ ↔ _
    rw [Except.error.injEq, Except.error.injEq]

end StoredIndex

section LookUps

open StoredIndex

theorem not_size_le_of_getElem? {α : Type} {entries : Array α} {index : Nat} {a : α}
    (h : entries[index]? = some a) : ¬ entries.size ≤ index :=
  Nat.not_le.mpr (Array.getElem?_eq_some_iff.mp h).1

theorem decides_descriptor (index : Nat) :
    (StoredIndex.type index).Decides m (m.descriptor index) := by
  unfold Metadata.descriptor
  split
  next h_some => exact decides_ok (not_size_le_of_getElem? h_some)
  next h_none => exact decides_error (i := .type index) (Array.getElem?_eq_none_iff.mp h_none)

theorem decides_typeDefinition (index : Nat) :
    (StoredIndex.definition index).Decides m (m.typeDefinition index) := by
  unfold Metadata.typeDefinition
  split
  next h_some => exact decides_ok (not_size_le_of_getElem? h_some)
  next h_none => exact decides_error (i := .definition index) (Array.getElem?_eq_none_iff.mp h_none)

theorem decides_genericParameter (index : Nat) :
    (StoredIndex.parameter index).Decides m (m.genericParameter index) := by
  unfold Metadata.genericParameter
  split
  next h_some => exact decides_ok (not_size_le_of_getElem? h_some)
  next h_none => exact decides_error (i := .parameter index) (Array.getElem?_eq_none_iff.mp h_none)

/-! A run lies inside its table, or reaches too far. -/

theorem runOf?_eq_none_iff {start count size : Nat} :
    runOf? start count size = none ↔ size < start + count := by
  unfold runOf?
  split
  next h => exact iff_of_false (fun h' => by cases h') (Nat.not_lt.mpr h)
  next h => exact iff_of_true rfl (Nat.lt_of_not_le h)

theorem toIndex?_bind_eq_none_iff {start : Int} {count size : Nat} :
    (toIndex? start >>= (runOf? · count size)) = none ↔
      start < 0 ∨ (size : Int) < start + count := by
  cases start with
  | ofNat n =>
    show runOf? n count size = none ↔ _
    rw [runOf?_eq_none_iff]
    constructor
    · intro h
      right
      simp only [Int.ofNat_eq_natCast]
      omega
    · intro h
      simp only [Int.ofNat_eq_natCast] at h
      omega
  | negSucc n => exact iff_of_true rfl (.inl (Int.negSucc_lt_zero n))

/-- The members of one owner. -/
theorem decides_memberRows {α : Type} {table : MemberTable} {entries : Array α}
    (h_size : entries.size = m.sizeOf table) (start : Int) (count : Nat) :
    (StoredIndex.members table start count).Decides m
      (Metadata.memberRows table entries start count) := by
  refine Decides.map ?_ fun run : Nat × Nat => (entries.extract run.1 run.2).toList
  unfold Metadata.members
  rw [h_size]
  split
  next h_empty => exact decides_ok fun h => h.1 h_empty
  next h_count =>
    split
    next run h_run =>
      refine decides_ok fun h => ?_
      rw [toIndex?_bind_eq_none_iff.mpr h.2] at h_run
      cases h_run
    next h_none =>
      exact decides_error (i := .members table start count)
        ⟨h_count, toIndex?_bind_eq_none_iff.mp h_none⟩

/-- The members of an owner whose row stores the run. -/
theorem explains_memberRows {α : Type} {table : MemberTable} {entries : Array α} {start : Int}
    {count : Nat} (h_size : entries.size = m.sizeOf table)
    (h : m.Stores (.members table start count)) :
    Raises m.Explains (Metadata.memberRows table entries start count) :=
  (decides_memberRows h_size start count).explains h

theorem decides_parametersOf_of_none {row : TypeDefinition} {index : Nat}
    (h_index : row.genericContainerIndex = some index)
    (h_none : m.genericContainers[index]? = none) :
    (StoredIndex.container index).Decides m (m.parametersOf row) := by
  unfold Metadata.parametersOf
  rw [h_index]
  dsimp only
  rw [h_none]
  exact decides_error (i := .container index) (Array.getElem?_eq_none_iff.mp h_none)

theorem decides_parametersOf {row : TypeDefinition} {index : Nat} {c : GenericContainer}
    (h_index : row.genericContainerIndex = some index)
    (h_c : m.genericContainers[index]? = some c) :
    (StoredIndex.parameters index c.parameterStart c.parameterCount).Decides m
      (m.parametersOf row) := by
  unfold Metadata.parametersOf
  rw [h_index]
  dsimp only
  rw [h_c]
  dsimp only
  generalize c.parameterCount = count
  cases c.parameterStart with
  | none =>
    -- without a first parameter there must be none at all
    by_cases h_empty : count = 0
    · subst h_empty
      exact decides_ok fun h => h rfl
    · dsimp only
      rw [if_neg h_empty]
      exact decides_error (i := .parameters index none count) h_empty
  | some start =>
    dsimp only
    rw [pure_bind]
    split
    next h_run =>
      refine decides_ok fun h => ?_
      rw [runOf?_eq_none_iff.mpr h] at h_run
      cases h_run
    next h_none =>
      exact decides_error (i := .parameters index (some start) count) (runOf?_eq_none_iff.mp h_none)

theorem explains_parametersOf {row : TypeDefinition} (h : row ∈ m.typeDefinitions) :
    Raises m.Explains (m.parametersOf row) := by
  cases h_index : row.genericContainerIndex with
  | none =>
    unfold Metadata.parametersOf
    rw [h_index]
    exact .pure _
  | some index =>
    cases h_c : m.genericContainers[index]? with
    | none => exact (decides_parametersOf_of_none h_index h_c).explains (.container h h_index)
    | some c => exact (decides_parametersOf h_index h_c).explains (.parameters h h_index h_c)

/-- Should there be no such definition, then an index that is stored is the reason. -/
def Metadata.Names (m : Metadata) (index : Nat) : Prop :=
  m.typeDefinitions.size ≤ index → m.Explains ((StoredIndex.definition index).error m)

theorem names_of_stores {index : Nat} (h : m.Stores (.definition index)) : m.Names index :=
  fun h_outside => .outside h h_outside

theorem names_of_lt {index : Nat} (h : index < m.typeDefinitions.size) : m.Names index :=
  fun h_outside => absurd h (Nat.not_lt.mpr h_outside)

/-- What is said of an entry that is not negative is said of the definition. -/
theorem names_of_mem_nestedTypes {entry : Int} {position : Nat} (h : entry ∈ m.nestedTypes)
    (h_position : toIndex? entry = some position) : m.Names position := by
  intro h_outside
  cases entry with
  | ofNat n =>
    cases h_position
    have h_entry : (StoredIndex.nested 0 (.ofNat position)).IsOutside m :=
      .inr (Int.ofNat_le.mpr h_outside)
    have h_error : m.Explains ((StoredIndex.nested 0 (.ofNat position)).error m) :=
      .outside (.nested h) h_entry
    exact h_error
  | negSucc n => cases h_position

theorem explains_typeDefinition {index : Nat} (h : m.Names index) :
    Raises m.Explains (m.typeDefinition index) := by
  intro e h_e
  obtain ⟨h_outside, rfl⟩ := (decides_typeDefinition index e).mp h_e
  exact h h_outside

/-! What is found stands in its table. -/

theorem mem_of_typeDefinition {index : Nat} {row : TypeDefinition}
    (h : m.typeDefinition index = .ok row) : row ∈ m.typeDefinitions := by
  unfold Metadata.typeDefinition at h
  split at h
  next h_some =>
    cases h
    exact Array.mem_of_getElem? h_some
  next => cases h

theorem mem_of_descriptor {index : Nat} {d : Descriptor} (h : m.descriptor index = .ok d) :
    d ∈ m.registration.types := by
  unfold Metadata.descriptor at h
  split at h
  next h_some =>
    cases h
    exact Array.mem_of_getElem? h_some
  next => cases h

theorem mem_of_genericParameter {index : Nat} {row : GenericParameter}
    (h : m.genericParameter index = .ok row) : row ∈ m.genericParameters := by
  unfold Metadata.genericParameter at h
  split at h
  next h_some =>
    cases h
    exact Array.mem_of_getElem? h_some
  next => cases h

theorem mem_of_mem_extract {α : Type} {entries : Array α} {first last : Nat} {a : α}
    (h : a ∈ (entries.extract first last).toList) : a ∈ entries := by
  rw [Array.toList_extract, List.extract_eq_take_drop] at h
  exact Array.mem_toList_iff.mp (List.mem_of_mem_drop (List.mem_of_mem_take h))

theorem mem_of_memberRows {α : Type} {table : MemberTable} {entries : Array α} {start : Int}
    {count : Nat} {rows : List α} (h : Metadata.memberRows table entries start count = .ok rows) :
    ∀ row ∈ rows, row ∈ entries := by
  obtain ⟨run, -, h_rows⟩ := except_bind_eq_ok_iff.mp h
  cases h_rows
  exact fun row => mem_of_mem_extract

theorem mem_of_parametersOf {row : TypeDefinition} {parameters : List GenericParameter}
    (h : m.parametersOf row = .ok parameters) :
    ∀ parameter ∈ parameters, parameter ∈ m.genericParameters := by
  unfold Metadata.parametersOf at h
  split at h
  next =>
    split at h
    next c h_c =>
      extract_lets count rest at h
      have h_rest {start : Nat} (h : rest start = .ok parameters) :
          ∀ parameter ∈ parameters, parameter ∈ m.genericParameters := by
        unfold rest at h
        split at h
        next =>
          cases h
          exact fun parameter => mem_of_mem_extract
        next => cases h
      -- without a first parameter there is none at all
      split at h
      next => exact h_rest h
      next =>
        split at h
        next => exact h_rest h
        next => cases h
    next => cases h
  next =>
    cases h
    exact fun parameter h_mem => absurd h_mem List.not_mem_nil

end LookUps

/-! ### Following addresses -/

section Images

variable (image : Image) (address : Nat)

theorem size_lt_of_slice?_eq_none {data : ByteArray} {offset length : Nat}
    (h : Bytes.slice? data offset length = none) : data.size < offset + length := by
  unfold Bytes.slice? Bytes.part? at h
  split at h
  · cases h
  next h_not => exact Nat.not_le.mp h_not

theorem length_of_slice?_eq_some {data : ByteArray} {offset length : Nat} {bytes : List UInt8}
    (h : Bytes.slice? data offset length = some bytes) : bytes.length = length := by
  have h_le := Bytes.le_size_of_slice? h
  have h_size : data.data.toList.length = data.size := Array.length_toList
  rw [Bytes.slice?_eq_some h_le] at h
  cases h
  rw [List.length_take, List.length_drop]
  omega

theorem lacks_offsetOf (length : Nat) :
    Raises (image.Lacks address length) (image.offsetOf address) := by
  unfold Image.offsetOf
  split
  · exact .ok _
  next h_none => exact .error (.uncovered (List.findSome?_eq_none_iff.mp h_none))

theorem lacks_pointers (count : Nat) :
    Raises (image.Lacks address (count * image.pointerWidth.bytes))
      (image.pointers address count) := by
  unfold Image.pointers
  dsimp only
  split
  · exact .pure _
  · split
    next h_beyond => exact .error (.endless h_beyond)
    next =>
      refine (lacks_offsetOf image address _).bind_of_ok fun offset h_offset => ?_
      refine Raises.bind ?_ fun _ => .pure _
      unfold Image.readBytes
      split
      · exact .ok _
      next h_none => exact .error (.short h_offset (size_lt_of_slice?_eq_none h_none))

theorem lacks_record (layout : ResolvedLayout) :
    Raises (image.Lacks address layout.size) (image.record layout address) := by
  refine (lacks_offsetOf image address _).bind_of_ok fun offset h_offset => ?_
  unfold ResolvedLayout.readAt
  split
  next bytes h_bytes =>
    -- the bytes are as many as the structure takes
    unfold ResolvedLayout.read
    rw [length_of_slice?_eq_some h_bytes, if_neg (Nat.lt_irrefl _)]
    exact .ok _
  next h_none => exact .error (.short h_offset (size_lt_of_slice?_eq_none h_none))

end Images

section Addresses

variable {address : Nat}

theorem Raises.explains {α : Type} {x : Except Error α} {link : Link} {length : Nat}
    (h : Raises (m.registration.image.Lacks address length) x) (h_linked : m.Links link)
    (h_extent : link.extent m = some (address, length)) : Raises m.Explains x :=
  h.imp fun _ => .unbacked h_linked h_extent

variable {pair : VersionPair} {width : PointerWidth} (h : m.registration.layouts.IsFor pair width)

include h

theorem explains_typeAt (h_linked : m.Links (.descriptorAt address)) :
    Raises m.Explains (m.registration.typeAt address) := by
  unfold Registration.typeAt
  split
  · exact .ok _
  · refine ((lacks_record _ address _).explains h_linked rfl).bind_of_ok fun record h_record => ?_
    have h_has := (Image.isOf_of_record h.descriptor h_record).has_permanent
    have h_bits : record.get .bits = .ok _ := Record.get_eq_value h_has (by decide)
    rw [Record.uint32, h_bits, Record.get_eq_value h_has (by decide)]
    -- the record has both fields, so that it is the tag that is unknown
    show Raises m.Explains (Descriptor.unpack _ _)
    unfold Descriptor.unpack
    split
    next h_unknown =>
      refine .error (.kind h_linked h_record ?_ h_unknown)
      rw [Record.uint32, h_bits]
      rfl
    next => exact .ok _

theorem explains_genericInstAt (h_linked : m.Links (.listAt address)) :
    Raises m.Explains (m.registration.genericInstAt address) :=
  ((lacks_record _ address _).explains h_linked rfl).bind_of_ok fun _ h_record =>
    .of_exists_ok (converts_genericInst (Image.isOf_of_record h.genericInst h_record))

theorem explains_arrayTypeAt (h_linked : m.Links (.shapeAt address)) :
    Raises m.Explains (m.registration.arrayTypeAt address) :=
  ((lacks_record _ address _).explains h_linked rfl).bind_of_ok fun _ h_record =>
    .of_exists_ok (converts_arrayShape (Image.isOf_of_record h.arrayType h_record))

theorem explains_genericClassAt (h_linked : m.Links (.genericAt address)) :
    Raises m.Explains (m.registration.genericClassAt address) := by
  refine ((lacks_record _ address _).explains h_linked rfl).bind_of_ok fun record h_record => ?_
  have h_kind := Image.isOf_of_record h.genericClass h_record
  have h_get (field : Field) (h_field : field ∈ RecordKind.genericClass.permanent) :
      Raises m.Explains (record.get field) :=
    .of_exists_ok ⟨_, Record.get_eq_value h_kind.has_permanent h_field⟩
  have h_definition : Raises m.Explains (GenericDefinition.ofRecord record) := by
    unfold GenericDefinition.ofRecord
    split
    next => exact .pure _
    next h_type =>
      have h_value := Raises.of_exists_ok (P := m.Explains) (h_kind.exists_definitionIndex h_type)
      refine (h_value.map).bind_of_ok fun index h_stored => ?_
      split
      next => exact .pure _
      next h_none =>
        have h_negative : index < 0 := by
          cases index with
          | ofNat n => cases h_none
          | negSucc n => exact Int.negSucc_lt_zero n
        exact .throw (.obstructed (.instantiatedIndex h_linked h_record h_stored h_negative))
  refine h_definition.bind fun _ => ?_
  iterate 3 refine (h_get _ (by decide)).bind fun _ => ?_
  exact .pure _

theorem explains_instantiatedDefinition {g : GenericClass} (h_linked : m.Links (.generic g)) :
    Raises m.Explains (m.instantiatedDefinition g) := by
  unfold Metadata.instantiatedDefinition
  split
  next => exact .ok _
  next address h_stored =>
    refine (explains_typeAt h (.definition h_linked h_stored)).bind_of_ok fun d h_d => ?_
    split
    next => exact .pure _
    next payload h_other =>
      exact .throw (.obstructed (.instantiated h_linked h_stored h_d h_other))

theorem explains_declaringDefinition {d : Descriptor} (h_linked : m.Links (.descriptor d)) :
    Raises m.Explains (m.declaringDefinition d) := by
  unfold Metadata.declaringDefinition
  split
  next => exact .ok _
  next address h_stored =>
    have h_class : m.Links (.genericAt address) := .instantiation h_linked h_stored
    exact (explains_genericClassAt h h_class).bind_of_ok fun g h_g =>
      explains_instantiatedDefinition h (.generic h_class h_g)
  next payload h_other h_unlike =>
    exact .error (.obstructed (.declaringType h_linked h_other h_unlike))

end Addresses

theorem explains_arguments {inst : GenericInst} (h_linked : m.Links (.list inst)) :
    Raises m.Explains (inst.arguments m.registration.image) := by
  by_cases h_empty : inst.count = 0
  · -- the address of an empty list is not looked at
    unfold GenericInst.arguments Image.pointers
    rw [if_pos h_empty]
    exact .pure _
  · exact (lacks_pointers _ inst.address inst.count).explains h_linked (if_neg h_empty)

/-- The definition of an instantiated type is stored in it, or in a descriptor. -/
theorem names_of_instantiatedDefinition {g : GenericClass} {index : Nat}
    (h_linked : m.Links (.generic g)) (h : m.instantiatedDefinition g = .ok index) :
    m.Names index := by
  unfold Metadata.instantiatedDefinition at h
  split at h
  next h_stored =>
    cases h
    exact names_of_stores (.instantiated h_linked h_stored)
  next address h_stored =>
    obtain ⟨d, h_d, h⟩ := except_bind_eq_ok_iff.mp h
    split at h
    next h_payload =>
      cases h
      exact names_of_stores
        (.definition (.descriptor (.definition h_linked h_stored) h_d) h_payload)
    next => cases h

theorem names_of_declaringDefinition {d : Descriptor} {index : Nat}
    (h_linked : m.Links (.descriptor d)) (h : m.declaringDefinition d = .ok index) :
    m.Names index := by
  unfold Metadata.declaringDefinition at h
  split at h
  next h_payload =>
    cases h
    exact names_of_stores (.definition h_linked h_payload)
  next address h_stored =>
    obtain ⟨g, h_g, h⟩ := except_bind_eq_ok_iff.mp h
    exact names_of_instantiatedDefinition (.generic (.instantiation h_linked h_stored) h_g) h
  next => cases h

end GlobalMetadata
