import GlobalMetadata.Proofs.Arrays
import GlobalMetadata.Proofs.Blob

/-!
# Records that differ in where nothing starts

A range is stored as a start and a count. The start of an empty range stands for nothing, and
writers leave a `-1`, a zero or whatever was there before. `RecordKind.ranges` lists the ranges of
each kind of structure, and `Record.Alike` says of two records that they are the same apart from the
starts of their empty ranges.

Two computations are compared by `Both`: they fail with the same error, or their results are
related. Records that are alike are converted to rows that are alike (`both_typeDefinition` and its
relatives), so that tables whose records are alike have rows that are alike (`forall₂_rowsOf`).
-/

namespace GlobalMetadata

/-! ### Computations side by side -/

/-- Both computations fail with the same error, or their results are related. -/
inductive Both {α β : Type} (R : α → β → Prop) : Except Error α → Except Error β → Prop
  | error (e : Error) : Both R (.error e) (.error e)
  | ok {a : α} {b : β} (h : R a b) : Both R (.ok a) (.ok b)

namespace Both

variable {α β γ δ : Type} {R : α → β → Prop} {S : γ → δ → Prop} {x : Except Error α}
  {y : Except Error β}

theorem of_eq {x' : Except Error α} (h : x' = x) : Both (· = ·) x x' := by
  subst h
  cases x' with
  | error e => exact .error e
  | ok a => exact .ok rfl

theorem eq {x' : Except Error α} (h : Both (· = ·) x x') : x' = x := by
  cases h with
  | error e => rfl
  | ok h => rw [h]

theorem rel (h : Both R x y) {a : α} {b : β} (h_x : x = .ok a) (h_y : y = .ok b) : R a b := by
  subst h_x h_y
  cases h with
  | ok h => exact h

theorem imp_of_ok {R' : α → β → Prop} (h : Both R x y)
    (h_imp : ∀ a b, x = .ok a → y = .ok b → R a b → R' a b) : Both R' x y := by
  cases h with
  | error e => exact .error e
  | ok h => exact .ok (h_imp _ _ rfl rfl h)

theorem imp {R' : α → β → Prop} (h : Both R x y) (h_imp : ∀ a b, R a b → R' a b) : Both R' x y :=
  h.imp_of_ok fun a b _ _ => h_imp a b

/-- What comes next may rely on both results. -/
theorem bind {f : α → Except Error γ} {g : β → Except Error δ} (h : Both R x y)
    (h_next : ∀ a b, x = .ok a → y = .ok b → R a b → Both S (f a) (g b)) :
    Both S (x >>= f) (y >>= g) := by
  cases h with
  | error e => exact .error e
  | ok h => exact h_next _ _ rfl rfl h

theorem bind_eq {x' : Except Error α} {f g : α → Except Error γ} {S : γ → γ → Prop} (h : x' = x)
    (h_next : ∀ a, x = .ok a → Both S (f a) (g a)) : Both S (x >>= f) (x' >>= g) :=
  (of_eq h).bind fun a _ h_a _ h_same => h_same ▸ h_next a h_a

theorem pure {a : α} {b : β} (h : R a b) :
    Both R (Pure.pure a : Except Error α) (Pure.pure b : Except Error β) :=
  .ok h

theorem map {f : α → γ} {g : β → δ} (h : Both R x y) (h_map : ∀ a b, R a b → S (f a) (g b)) :
    Both S (f <$> x) (g <$> y) := by
  cases h with
  | error e => exact .error e
  | ok h => exact .ok (h_map _ _ h)

theorem mapM {f : γ → Except Error α} {g : γ → Except Error β} {cs : List γ}
    (h : ∀ c ∈ cs, Both R (f c) (g c)) : Both (List.Forall₂ R) (cs.mapM f) (cs.mapM g) := by
  induction cs with
  | nil => exact .ok .nil
  | cons c cs ih =>
    rw [List.mapM_cons, List.mapM_cons]
    refine (h c List.mem_cons_self).bind fun a b _ _ h_first => ?_
    refine (ih fun c' h_c' => h c' (List.mem_cons_of_mem c h_c')).bind fun as bs _ _ h_rest => ?_
    exact pure (.cons h_first h_rest)

end Both

/-! ### Ranges -/

/-- The ranges of each kind of structure, as the fields with their counts and their starts. -/
def RecordKind.ranges : RecordKind → List (Field × Field)
  | .typeDefinition =>
    [(.fieldCount, .fieldStart), (.methodCount, .methodStart),
      (.nestedTypeCount, .nestedTypesStart)]
  | .methodDefinition => [(.parameterCount, .parameterStart)]
  | .genericContainer => [(.typeArgc, .genericParameterStart)]
  | .genericInst => [(.typeArgc, .typeArgv)]
  | .codeRegistration =>
    [(.methodPointersCount, .methodPointers),
      (.delegateWrappersFromNativeToManagedCount, .delegateWrappersFromNativeToManaged),
      (.reversePInvokeWrapperCount, .reversePInvokeWrappers),
      (.delegateWrappersFromManagedToNativeCount, .delegateWrappersFromManagedToNative),
      (.marshalingFunctionsCount, .marshalingFunctions),
      (.ccwMarshalingFunctionsCount, .ccwMarshalingFunctions),
      (.genericMethodPointersCount, .genericMethodPointers),
      (.genericMethodPointersCount, .genericAdjustorThunks),
      (.invokerPointersCount, .invokerPointers),
      (.customAttributeCount, .customAttributeGenerators), (.guidCount, .guids),
      (.unresolvedVirtualCallCount, .unresolvedVirtualCallPointers),
      (.unresolvedVirtualCallCount, .unresolvedInstanceCallPointers),
      (.unresolvedVirtualCallCount, .unresolvedStaticCallPointers),
      (.interopDataCount, .interopData),
      (.windowsRuntimeFactoryCount, .windowsRuntimeFactoryTable),
      (.codeGenModulesCount, .codeGenModules)]
  | .metadataRegistration =>
    [(.genericClassesCount, .genericClasses), (.genericInstsCount, .genericInsts),
      (.genericMethodTableCount, .genericMethodTable), (.typesCount, .types),
      (.methodSpecsCount, .methodSpecs), (.methodReferencesCount, .methodReferences),
      (.fieldOffsetsCount, .fieldOffsets),
      (.typeDefinitionsSizesCount, .typeDefinitionsSizes), (.metadataUsagesCount, .metadataUsages)]
  | _ => []

/-- The fields with the starts of ranges. -/
def RecordKind.starts (kind : RecordKind) : List Field :=
  kind.ranges.map (·.2)

namespace Record

/-- The field is the start of an empty range. -/
def StartsEmpty (r : Record) (field : Field) : Prop :=
  ∃ counter, (counter, field) ∈ r.kind.ranges ∧ r.get? counter = some 0

/-- **Records that are alike**: they are the same, apart from the starts of empty ranges. -/
structure Alike (r r' : Record) : Prop where
  kind : r'.kind = r.kind
  version : r'.version = r.version
  entries : List.Forall₂ (fun e e' => e'.1 = e.1 ∧ (e'.2 = e.2 ∨ r.StartsEmpty e.1))
    r.entries r'.entries

variable {r r' : Record} {field : Field}

theorem not_startsEmpty (h : field ∉ r.kind.starts) : ¬ r.StartsEmpty field :=
  fun ⟨_, h_range, _⟩ => h (List.mem_map_of_mem h_range)

/-- Both records lack a field, or both have it, with the same value unless it is the start of an
empty range. -/
theorem Alike.rel_get? (h : r.Alike r') (field : Field) :
    Option.Rel (fun a b => b = a ∨ r.StartsEmpty field) (r.get? field) (r'.get? field) := by
  unfold get?
  generalize r.entries = entries, r'.entries = entries', h.entries = h_entries
  induction h_entries with
  | nil => exact .none
  | @cons e e' entries entries' h_first _ ih =>
    rw [List.find?_cons, List.find?_cons, h_first.1]
    by_cases h_field : e.1 = field
    · subst h_field
      simp only [decide_true]
      exact .some h_first.2
    · simp only [h_field, decide_false]
      exact ih

theorem Alike.get?_eq (h : r.Alike r') (h_field : ¬ r.StartsEmpty field) :
    r'.get? field = r.get? field := by
  have h_rel := h.rel_get? field
  generalize r.get? field = x, r'.get? field = y at h_rel
  cases h_rel with
  | none => rfl
  | some h => rw [h.resolve_right h_field]

theorem Alike.both_get (h : r.Alike r') (field : Field) :
    Both (fun a b => b = a ∨ r.StartsEmpty field) (r.get field) (r'.get field) := by
  have h_rel := h.rel_get? field
  unfold get
  rw [h.kind, h.version]
  generalize r.get? field = x, r'.get? field = y at h_rel
  cases h_rel with
  | none => exact .error _
  | some h => exact .ok h

theorem Alike.get_eq (h : r.Alike r') (h_field : ¬ r.StartsEmpty field) :
    r'.get field = r.get field := by
  unfold get
  rw [h.kind, h.version, h.get?_eq h_field]

theorem Alike.value_eq (h : r.Alike r') (h_field : ¬ r.StartsEmpty field) :
    r'.value field = r.value field := by
  unfold value
  rw [h.get?_eq h_field]

/-- The start of a range is the same, unless the count is zero; so it is with whatever the two are
read as. -/
theorem Alike.start_eq {β : Type} (h : r.Alike r') (counter base : Field)
    (h_range : ∀ range ∈ r.kind.ranges, range.2 = base → range.1 = counter) (narrow : Nat → Nat)
    (h_zero : narrow 0 = 0) (read : Nat → β) :
    narrow (r.value counter) = 0 ∨ read (r'.value base) = read (r.value base) := by
  by_cases h_empty : r.StartsEmpty base
  · obtain ⟨c, h_mem, h_none⟩ := h_empty
    obtain rfl : c = counter := h_range _ h_mem rfl
    left
    rw [value, h_none]
    exact h_zero
  · exact .inr (congrArg read (h.value_eq h_empty))

theorem Alike.fields_eq (h : r.Alike r') : r'.fields = r.fields := by
  unfold fields
  generalize r.entries = entries, r'.entries = entries', h.entries = h_entries
  induction h_entries with
  | nil => rfl
  | cons h_first _ ih => rw [List.map_cons, List.map_cons, h_first.1, ih]

theorem Alike.contains_eq (h : r.Alike r') (field : Field) :
    r'.contains field = r.contains field := by
  have h_any (r : Record) : r.contains field = r.fields.any (· = field) := by
    rw [contains, fields, List.any_map]
    rfl
  rw [h_any, h_any, h.fields_eq]

/-- Without ranges there is nothing in which the records could differ. -/
theorem Alike.eq (h : r.Alike r') (h_none : r.kind.ranges = []) : r' = r := by
  have h_same : r'.entries = r.entries := by
    generalize r.entries = entries, r'.entries = entries', h.entries = h_entries
    induction h_entries with
    | nil => rfl
    | @cons e e' entries entries' h_first _ ih =>
      have h_value : e'.2 = e.2 := by
        refine h_first.2.resolve_right fun ⟨_, h_range, _⟩ => ?_
        rw [h_none] at h_range
        exact absurd h_range List.not_mem_nil
      rw [ih, Prod.ext h_first.1 h_value]
  obtain ⟨kind, version, entries⟩ := r
  obtain ⟨kind', version', entries'⟩ := r'
  obtain rfl : kind' = kind := h.kind
  obtain rfl : version' = version := h.version
  obtain rfl : entries' = entries := h_same
  rfl

theorem Alike.has (h : r.Alike r') {fields : List Field} (h_has : r.Has fields) :
    r'.Has fields := by
  intro field h_field
  have h_rel := h.rel_get? field
  have h_some := h_has field h_field
  generalize r.get? field = x, r'.get? field = y at h_rel h_some
  cases h_rel with
  | none => exact h_some
  | some h => rfl

end Record

/-! ### Rows -/

/-- Definitions that are the same, apart from where their members start if there are none. -/
structure TypeDefinition.Alike (row row' : TypeDefinition) : Prop where
  others : row' = { row with
    fieldStart := row'.fieldStart
    methodStart := row'.methodStart
    nestedTypesStart := row'.nestedTypesStart }
  fields : row.fieldCount = 0 ∨ row'.fieldStart = row.fieldStart
  methods : row.methodCount = 0 ∨ row'.methodStart = row.methodStart
  nested : row.nestedTypeCount = 0 ∨ row'.nestedTypesStart = row.nestedTypesStart

/-- Methods that are the same, apart from where their parameters start if there are none. -/
structure MethodDefinition.Alike (row row' : MethodDefinition) : Prop where
  others : row' = { row with parameterStart := row'.parameterStart }
  parameters : row.parameterCount = 0 ∨ row'.parameterStart = row.parameterStart

/-- Generic containers that are the same, apart from where their parameters start if there are
none. -/
structure GenericContainer.Alike (row row' : GenericContainer) : Prop where
  others : row' = { row with parameterStart := row'.parameterStart }
  parameters : row.parameterCount = 0 ∨ row'.parameterStart = row.parameterStart

section Rows

open Record

variable {r r' : Record} (h : r.Alike r')

include h

theorem Record.Alike.get?_eq_of_not_mem {kind : RecordKind} (h_kind : r.kind = kind) {field : Field}
    (h_field : field ∉ kind.starts) : r'.get? field = r.get? field :=
  h.get?_eq (not_startsEmpty (h_kind ▸ h_field))

theorem Record.Alike.value_eq_of_not_mem {kind : RecordKind} (h_kind : r.kind = kind)
    {field : Field} (h_field : field ∉ kind.starts) : r'.value field = r.value field :=
  h.value_eq (not_startsEmpty (h_kind ▸ h_field))

theorem both_typeDefinition (h_kind : r.kind = .typeDefinition)
    (h_has : r.Has RecordKind.typeDefinition.permanent) :
    Both TypeDefinition.Alike (Row.ofRecord r) (Row.ofRecord r') := by
  simp (disch := decide) only [Row.ofRecord, uint32, int32, uint16, index, get_eq_value h_has,
    get_eq_value (h.has h_has)]
  refine .ok ⟨?_, ?_, ?_, ?_⟩ <;> dsimp only
  · simp (disch := decide) only [h.value_eq_of_not_mem h_kind, uint32?, index?,
      h.get?_eq_of_not_mem h_kind]
  · exact h.start_eq .fieldCount .fieldStart (h_kind ▸ by decide) asUInt16 rfl asInt32
  · exact h.start_eq .methodCount .methodStart (h_kind ▸ by decide) asUInt16 rfl asInt32
  · exact h.start_eq .nestedTypeCount .nestedTypesStart (h_kind ▸ by decide) asUInt16 rfl asInt32

theorem both_methodDefinition (h_kind : r.kind = .methodDefinition)
    (h_has : r.Has RecordKind.methodDefinition.permanent) :
    Both MethodDefinition.Alike (Row.ofRecord r) (Row.ofRecord r') := by
  simp (disch := decide) only [Row.ofRecord, uint32, int32, uint16, index, get_eq_value h_has,
    get_eq_value (h.has h_has)]
  refine .ok ⟨?_, ?_⟩ <;> dsimp only
  · simp (disch := decide) only [h.value_eq_of_not_mem h_kind, uint32?, index?,
      h.get?_eq_of_not_mem h_kind]
  · exact h.start_eq .parameterCount .parameterStart (h_kind ▸ by decide) asUInt16 rfl asInt32

theorem both_genericContainer (h_kind : r.kind = .genericContainer)
    (h_has : r.Has RecordKind.genericContainer.permanent) :
    Both GenericContainer.Alike (Row.ofRecord r) (Row.ofRecord r') := by
  simp (disch := decide) only [Row.ofRecord, uint32, int32, index, get_eq_value h_has,
    get_eq_value (h.has h_has)]
  refine .ok ⟨?_, ?_⟩ <;> dsimp only
  · simp (disch := decide) only [h.value_eq_of_not_mem h_kind]
  · exact h.start_eq .typeArgc .genericParameterStart (h_kind ▸ by decide) asUInt32 rfl asIndex

end Rows

/-! ### Tables -/

/-- The records that stand one after the other in the bytes of a section. -/
def recordsOf (kind : RecordKind) (pair : VersionPair) (bytes : List UInt8) : List Record :=
  let layout := kind.blobLayout pair
  (Bytes.chunks layout.size (bytes.length / layout.size) bytes).map (layout.recordOf .little)

theorem rowsOf_eq_filterMap (α : Type) [Row α] (pair : VersionPair) (bytes : List UInt8) :
    rowsOf α pair bytes =
      (recordsOf (Row.kind α) pair bytes).filterMap fun r => (Row.ofRecord r).toOption := by
  rw [rowsOf, recordsOf, List.filterMap_map]
  refine List.filterMap_congr fun piece h_piece => ?_
  have h_length := Bytes.length_of_mem_chunks (Nat.div_mul_le_self _ _) h_piece
  rw [ResolvedLayout.read, if_neg (Nat.not_lt_of_le (Nat.le_of_eq h_length.symm))]
  rfl

theorem kind_of_mem_recordsOf {kind : RecordKind} {pair : VersionPair} {bytes : List UInt8}
    {r : Record} (h : r ∈ recordsOf kind pair bytes) : r.kind = kind ∧ r.Has kind.permanent := by
  obtain ⟨piece, -, rfl⟩ := List.mem_map.mp h
  refine ⟨rfl, Record.has_of_forall_mem fun field h_field => ?_⟩
  rw [Record.fields, ResolvedLayout.recordOf, ResolvedLayout.fields_entriesOf]
  exact RecordKind.mem_present_of_permanent h_field pair

/-- **Tables.** Where records that are alike make rows that are related, so do the tables. -/
theorem forall₂_rowsOf {α : Type} [Row α] {R : α → α → Prop}
    (h_row : ∀ r r' : Record, r.Alike r' → r.kind = Row.kind α → r.Has (Row.kind α).permanent →
      Both R (Row.ofRecord r) (Row.ofRecord r')) {pair : VersionPair} {bytes bytes' : List UInt8}
    (h : List.Forall₂ Record.Alike (recordsOf (Row.kind α) pair bytes)
      (recordsOf (Row.kind α) pair bytes')) :
    List.Forall₂ R (rowsOf α pair bytes) (rowsOf α pair bytes') := by
  rw [rowsOf_eq_filterMap, rowsOf_eq_filterMap]
  have h_each := fun r (h_r : r ∈ recordsOf (Row.kind α) pair bytes) => kind_of_mem_recordsOf h_r
  generalize recordsOf (Row.kind α) pair bytes = records,
    recordsOf (Row.kind α) pair bytes' = records' at h h_each
  induction h with
  | nil => exact .nil
  | @cons r r' records records' h_first _ ih =>
    obtain ⟨h_kind, h_has⟩ := h_each r List.mem_cons_self
    have h_rest := ih fun r h_r => h_each r (List.mem_cons_of_mem _ h_r)
    have h_both := h_row r r' h_first h_kind h_has
    rw [List.filterMap_cons, List.filterMap_cons]
    generalize (Row.ofRecord r : Except Error α) = x, (Row.ofRecord r' : Except Error α) = y
      at h_both
    cases h_both with
    | error e => exact h_rest
    | ok h_rows => exact .cons h_rows h_rest

/-- Rows without ranges are the same. -/
theorem rowsOf_eq {α : Type} [Row α] (h_none : (Row.kind α).ranges = []) {pair : VersionPair}
    {bytes bytes' : List UInt8} (h : List.Forall₂ Record.Alike (recordsOf (Row.kind α) pair bytes)
      (recordsOf (Row.kind α) pair bytes')) : rowsOf α pair bytes' = rowsOf α pair bytes := by
  have h_rows : List.Forall₂ (· = ·) (rowsOf α pair bytes) (rowsOf α pair bytes') :=
    forall₂_rowsOf (fun r r' h_r h_kind _ => .of_eq (by rw [h_r.eq (h_kind ▸ h_none)])) h
  exact (List.forall₂_eq_eq_eq ▸ h_rows : _ = _).symm

end GlobalMetadata
