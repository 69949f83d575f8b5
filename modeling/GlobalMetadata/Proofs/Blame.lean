import GlobalMetadata.Proofs.Change
import GlobalMetadata.Proofs.Follow
import GlobalMetadata.Proofs.Rerun
import GlobalMetadata.Proofs.RoundTrip

/-!
# What failures come from

Whatever keeps a class from being created or completed is found by some look-up, so that every
failure in a report is explained by what is stored (`Metadata.Explains`). Errors are followed
through resolution by `Resolving.Fails`: whatever error a step ends with, in whatever arena,
satisfies a condition. There is one lemma for each step. Only visits write failures down, so that
from there it is one invariant of states (`Resolver.Explained`), which visits, runs and requests
keep.

Only a reference that dangles leaves the rest usable. Every look-up of an index that points outside
of its target says so (`Resolving.LooksUp`), except for one: the heap of names answers in the same
way as an image that ends too early, with `Error.outOfBounds`. So a definition whose name is outside
of the heap is reported as a failure that is not recoverable.

* `Resolving.fails_members`: one class;
* `Resolving.LooksUp.fails`: the look-ups of an index that points outside;
* `Resolver.Makes.exists_failure_of_namedOutside`: the definition whose name is outside;
* `Resolver.failures_explained`: all failures of a run.
-/

namespace GlobalMetadata

/-! ### Steps that fail -/

namespace Resolving

variable {α β : Type}

/-- Whatever error a step ends with satisfies `P`. -/
def Fails (P : Error → Prop) (x : Resolving α) : Prop :=
  ∀ arena, Raises P (result x arena)

section Rules

variable {P : Error → Prop}

theorem fails_pure (a : α) : Fails P (pure a) :=
  fun _ => .ok a

theorem fails_throw {e : Error} (h : P e) : Fails P (throw e : Resolving α) :=
  fun _ => .error h

theorem fails_lift {x : Except Error α} (h : Raises P x) : Fails P (liftM x : Resolving α) :=
  fun _ => h

theorem fails_get : Fails P get :=
  fun arena => .ok arena

theorem fails_intern (type : ResolvedType) : Fails P (intern type) :=
  fun arena => .ok (arena.intern type).1

theorem fails_insert (c : ResolvedClass) : Fails P (insert c) :=
  fun arena => .ok (arena.insert c).1

/-- A sequence of two steps fails with one of them, and the second one starts from a value that the
first one has given. -/
theorem Fails.bind_of_ok {x : Resolving α} {f : α → Resolving β} (h_x : Fails P x)
    (h_f : ∀ arena a, result x arena = .ok a → Fails P (f a)) : Fails P (x >>= f) := by
  intro arena e h_e
  cases h : result x arena with
  | ok a =>
    rw [(Resolving.bind_of_ok h).1] at h_e
    exact h_f arena a h _ e h_e
  | error e' =>
    rw [(bind_of_error h).1] at h_e
    cases h_e
    exact h_x arena e h

theorem Fails.bind {x : Resolving α} {f : α → Resolving β} (h_x : Fails P x)
    (h_f : ∀ a, Fails P (f a)) : Fails P (x >>= f) :=
  h_x.bind_of_ok fun _ a _ => h_f a

/-- What is read is the same in every arena. -/
theorem fails_read {x : Except Error α} {f : α → Resolving β} (h_x : Raises P x)
    (h_f : ∀ a, x = .ok a → Fails P (f a)) : Fails P (liftM x >>= f) :=
  (fails_lift h_x).bind_of_ok fun _ a h_a => h_f a h_a

theorem Fails.map {x : Resolving α} (h_x : Fails P x) (f : α → β) : Fails P (f <$> x) := by
  rw [map_eq_pure_bind]
  exact h_x.bind fun _ => fails_pure _

theorem fails_mapM {f : α → Resolving β} {as : List α} (h_f : ∀ a ∈ as, Fails P (f a)) :
    Fails P (as.mapM f) := by
  induction as with
  | nil => exact fails_pure []
  | cons a as ih =>
    rw [List.mapM_cons]
    refine (h_f a List.mem_cons_self).bind fun _ => ?_
    exact (ih fun a' h_a' => h_f a' (List.mem_cons_of_mem a h_a')).bind fun _ => fails_pure _

end Rules

variable {m : Metadata}

/-! ### Creating classes -/

section Creation

variable {pair : VersionPair} {width : PointerWidth} (h : m.registration.layouts.IsFor pair width)

theorem fails_openParameter {row : GenericParameter} (h_row : row ∈ m.genericParameters)
    (ofMethod : Bool) : Fails m.Explains (openParameter m row ofMethod) :=
  (fails_lift (explains_string (.genericParameterName h_row))).bind fun _ => fails_intern _

theorem explains_namespaceOf {row : TypeDefinition} (h_row : row ∈ m.typeDefinitions)
    (outer : Option String) : Raises m.Explains (m.namespaceOf row outer) := by
  cases outer with
  | none => exact explains_string (.namespaceName h_row)
  | some namespaceName => exact .ok namespaceName

theorem fails_create (index : Nat) {row : TypeDefinition} (h_row : row ∈ m.typeDefinitions)
    (declaring : Option ClassId) : Fails m.Explains (create m index row declaring) := by
  refine (fails_lift (explains_string (.typeName h_row))).bind fun name => ?_
  refine fails_get.bind fun arena => ?_
  refine (fails_lift (explains_namespaceOf h_row _)).bind fun namespaceName => ?_
  refine fails_read (explains_parametersOf h_row) fun parameters h_parameters => ?_
  have h_mem := mem_of_parametersOf h_parameters
  exact (fails_mapM fun parameter h => fails_openParameter (h_mem parameter h) false).bind
    fun _ => fails_insert _

include h

theorem fails_declaringClass {resolve : Nat → Resolving ClassId}
    (h_resolve : ∀ outer, m.Names outer → Fails m.Explains (resolve outer)) {row : TypeDefinition}
    (h_row : row ∈ m.typeDefinitions) : Fails m.Explains (declaringClass m resolve row) := by
  unfold declaringClass
  split
  · exact fails_pure _
  next index h_index =>
    have h_stored : m.Stores (.type index) := .declaringType h_row h_index
    refine fails_read ((decides_descriptor index).explains h_stored) fun d h_d => ?_
    have h_linked : m.Links (.descriptor d) := .type (mem_of_descriptor h_d)
    exact fails_read (explains_declaringDefinition h h_linked) fun outer h_outer =>
      (h_resolve outer (names_of_declaringDefinition h_linked h_outer)).map _

theorem fails_definitionWithin (links : Nat) {index : Nat} (h_names : m.Names index) :
    Fails m.Explains (definitionWithin m links index) := by
  induction links generalizing index with
  | zero =>
    refine fails_get.bind fun arena => ?_
    split
    · exact fails_pure _
    · exact fails_throw (.obstructed (.declaringChain index))
  | succ links ih =>
    refine fails_get.bind fun arena => ?_
    split
    · exact fails_pure _
    · refine fails_read (explains_typeDefinition h_names) fun row h_row => ?_
      have h_mem := mem_of_typeDefinition h_row
      exact (fails_declaringClass h (fun outer => ih) h_mem).bind fun _ =>
        fails_create index h_mem _

theorem fails_definition {index : Nat} (h_names : m.Names index) :
    Fails m.Explains (definition m index) :=
  fails_definitionWithin h _ h_names

theorem fails_classOf {key : ClassKey} (h_names : m.Names key.definition) :
    Fails m.Explains (classOf m key) := by
  unfold classOf
  split
  · refine fails_get.bind fun arena => ?_
    split
    · exact fails_pure _
    · intro arena e h_e
      cases h_base : result (definition m key.definition) arena with
      | error e' =>
        rw [(bind_of_error h_base).1] at h_e
        cases h_e
        exact fails_definition h h_names arena e h_base
      | ok base =>
        -- the class of the definition is there, so that the rest cannot fail
        obtain ⟨c, h_c, -⟩ := Arena.find?_eq_some_iff.mp (definitionWithin_key m _ _ _ _ h_base)
        rw [(bind_of_ok h_base).1, result_get_bind] at h_e
        rw [show (after (definition m key.definition) arena).class? base = some c from h_c] at h_e
        exact fails_insert _ _ e h_e
  · exact fails_definition h h_names

end Creation

/-! ### Following references -/

section Reference

variable (maxDepth : Nat) (scope : GenericScope)

theorem fails_classType (id : ClassId) : Fails m.Explains (classType id) :=
  fails_intern _

theorem fails_parameter {index : Nat} (h_stored : m.Stores (.parameter index)) (ofMethod : Bool) :
    Fails m.Explains (parameter m scope index ofMethod) := by
  refine fails_read ((decides_genericParameter index).explains h_stored) fun row h_row => ?_
  split
  · exact fails_pure _
  · exact fails_openParameter (mem_of_genericParameter h_row) ofMethod

variable {pair : VersionPair} {width : PointerWidth} (h : m.registration.layouts.IsFor pair width)
  {resolve : Nat → Resolving TypeId}

include h

theorem fails_arguments
    (h_resolve : ∀ va, m.Links (.descriptorAt va) → Fails m.Explains (resolve va)) {address : Nat}
    (h_linked : address ≠ 0 → m.Links (.listAt address)) :
    Fails m.Explains (arguments m resolve address) := by
  unfold arguments
  split
  · exact fails_pure _
  next h_some =>
    refine fails_read (explains_genericInstAt h (h_linked h_some)) fun inst h_inst => ?_
    have h_list : m.Links (.list inst) := .list (h_linked h_some) h_inst
    refine fails_read (explains_arguments h_list) fun addresses h_addresses => ?_
    exact fails_mapM fun va h_va => h_resolve va (.argument h_list h_addresses h_va)

theorem fails_settle {key : ClassKey} (h_names : m.Names key.definition) (base : ClassId) :
    Fails m.Explains (settle m maxDepth key base) := by
  refine fails_get.bind fun arena => ?_
  dsimp only
  split
  · exact fails_classType base
  · split
    · have h_truncate : Fails m.Explains (modify (·.truncate) : Resolving PUnit) :=
        fun _ => .ok PUnit.unit
      exact h_truncate.bind fun _ => fails_classType base
    · exact (fails_classOf h h_names).bind fun id => fails_classType id

theorem fails_instantiate {key : ClassKey} (h_names : m.Names key.definition) :
    Fails m.Explains (instantiate m maxDepth key) := by
  rw [instantiate_eq]
  exact (fails_definition h h_names).bind (fails_settle maxDepth h h_names)

theorem fails_instantiation
    (h_resolve : ∀ va, m.Links (.descriptorAt va) → Fails m.Explains (resolve va)) {address : Nat}
    (h_linked : m.Links (.genericAt address)) :
    Fails m.Explains (instantiation m maxDepth resolve address) := by
  refine fails_read (explains_genericClassAt h h_linked) fun g h_g => ?_
  have h_generic : m.Links (.generic g) := .generic h_linked h_g
  refine fails_read (explains_instantiatedDefinition h h_generic) fun index h_index => ?_
  have h_names := names_of_instantiatedDefinition h_generic h_index
  refine (fails_arguments h h_resolve (.classArguments h_generic)).bind fun classArgs => ?_
  refine (fails_arguments h h_resolve (.methodArguments h_generic)).bind fun methodArgs => ?_
  exact fails_instantiate maxDepth h h_names

theorem fails_payload
    (h_resolve : ∀ va, m.Links (.descriptorAt va) → Fails m.Explains (resolve va)) {d : Descriptor}
    (h_linked : m.Links (.descriptor d)) :
    Fails m.Explains (payload m maxDepth scope resolve d) := by
  unfold payload
  split
  · exact fails_intern _
  · split
    next => exact fails_intern _
    next index h_stored =>
      exact (fails_definition h (names_of_stores (.definition h_linked h_stored))).bind
        fails_classType
    next va h_stored =>
      refine (h_resolve va (.element h_linked h_stored)).bind fun element => ?_
      split <;> exact fails_intern _
    next va h_stored =>
      have h_shape : m.Links (.shapeAt va) := .array h_linked h_stored
      exact fails_read (explains_arrayTypeAt h h_shape) fun shape h_read =>
        (h_resolve _ (.shape h_shape h_read)).bind fun _ => fails_intern _
    next index h_stored => exact fails_parameter scope (.parameter h_linked h_stored) _
    next va h_stored =>
      exact fails_instantiation maxDepth h h_resolve (.instantiation h_linked h_stored)

theorem fails_atAddress {resolve : Descriptor → Resolving TypeId}
    (h_resolve : ∀ d, m.Links (.descriptor d) → Fails m.Explains (resolve d)) {address : Nat}
    (h_linked : m.Links (.descriptorAt address)) :
    Fails m.Explains (atAddress m resolve address) :=
  fails_read (explains_typeAt h h_linked) fun d h_d => h_resolve d (.descriptor h_linked h_d)

theorem fails_descriptorWithin (levels : Nat) {d : Descriptor}
    (h_linked : m.Links (.descriptor d)) :
    Fails m.Explains (descriptorWithin m maxDepth scope levels d) := by
  induction levels generalizing d with
  | zero => exact fails_throw (.obstructed (.descriptorNesting d.kind))
  | succ levels ih =>
    have h_resolve (va : Nat) (h_va : m.Links (.descriptorAt va)) :
        Fails m.Explains (atAddress m (descriptorWithin m maxDepth scope levels) va) :=
      fails_atAddress h (fun _ => ih) h_va
    refine (fails_payload maxDepth scope h h_resolve h_linked).bind fun type => ?_
    split
    · exact fails_intern _
    · exact fails_pure _

theorem fails_descriptor {d : Descriptor} (h_linked : m.Links (.descriptor d)) :
    Fails m.Explains (descriptor m maxDepth scope d) :=
  fails_descriptorWithin maxDepth scope h _ h_linked

theorem fails_typeIndex {index : Nat} (h_stored : m.Stores (.type index)) :
    Fails m.Explains (typeIndex m maxDepth scope index) :=
  fails_read ((decides_descriptor index).explains h_stored) fun _ h_d =>
    fails_descriptor maxDepth scope h (.type (mem_of_descriptor h_d))

theorem fails_listed {address : Nat} (h_listed : address ∈ m.registration.genericClasses) :
    Fails m.Explains (listed m maxDepth address) :=
  fails_instantiation maxDepth h
    (fun _ h_va => fails_atAddress h (fun _ => fails_descriptorWithin maxDepth .empty h _) h_va)
    (.instantiated h_listed)

end Reference

/-! ### Completing classes -/

section Completion

variable (maxDepth : Nat) (scope : GenericScope) (owner : ClassId)
  {pair : VersionPair} {width : PointerWidth} (h : m.registration.layouts.IsFor pair width)

include h

theorem fails_nestedClass (index : Nat) {entry : Int} (h_entry : entry ∈ m.nestedTypes) :
    Fails m.Explains (nestedClass m owner index entry) := by
  unfold nestedClass
  cases entry with
  | ofNat position =>
    refine (fails_definition h (names_of_mem_nestedTypes h_entry rfl)).bind fun id => ?_
    refine fails_get.bind fun arena => ?_
    split
    · exact fails_pure _
    · exact fails_throw (.obstructed (.nestedOwner h_entry))
  | negSucc n =>
    have h_outside : (StoredIndex.nested index (.negSucc n)).IsOutside m :=
      .inl (Int.negSucc_lt_zero n)
    exact fails_throw (.outside (.nested h_entry) h_outside)

theorem fails_field {row : FieldDefinition} (h_row : row ∈ m.fields) :
    Fails m.Explains (field m maxDepth scope owner row) := by
  refine fails_read (explains_string (.fieldName h_row)) fun name h_name => ?_
  split
  next index h_index =>
    have h_stored : m.Stores (.type index) := .fieldType h_row h_index
    refine fails_read ((decides_descriptor index).explains h_stored) fun d h_d => ?_
    have h_linked : m.Links (.descriptor d) := .type (mem_of_descriptor h_d)
    exact (fails_descriptor maxDepth scope h h_linked).bind fun _ => fails_pure _
  next h_none =>
    have h_untyped := Option.eq_none_iff_forall_ne_some.mpr h_none
    exact fails_throw (.obstructed (.fieldType h_row h_name h_untyped))

theorem fails_fields {row : TypeDefinition} (h_row : row ∈ m.typeDefinitions) :
    Fails m.Explains (fields m maxDepth scope owner row) := by
  refine fails_read (explains_memberRows rfl (.fields h_row)) fun rows h_rows => ?_
  have h_mem := mem_of_memberRows h_rows
  exact (fails_mapM fun row h_row => fails_field maxDepth scope owner h (h_mem row h_row)).bind
    fun _ => fails_pure _

theorem fails_methodParameter {row : ParameterDefinition} (h_row : row ∈ m.parameters) :
    Fails m.Explains (methodParameter m maxDepth scope row) := by
  refine fails_read (explains_string (.parameterName h_row)) fun name h_name => ?_
  split
  next index h_index =>
    exact (fails_typeIndex maxDepth scope h (.parameterType h_row h_index)).bind fun _ =>
      fails_pure _
  next h_none =>
    have h_untyped := Option.eq_none_iff_forall_ne_some.mpr h_none
    exact fails_throw (.obstructed (.parameterType h_row h_name h_untyped))

theorem fails_parameters {row : MethodDefinition} (h_row : row ∈ m.methods) :
    Fails m.Explains (parameters m maxDepth scope row) := by
  refine fails_read (explains_memberRows rfl (.methodParameters h_row)) fun rows h_rows => ?_
  have h_mem := mem_of_memberRows h_rows
  exact fails_mapM fun row h_row => fails_methodParameter maxDepth scope h (h_mem row h_row)

theorem fails_returnType {row : MethodDefinition} (h_row : row ∈ m.methods) :
    Fails m.Explains (returnType m maxDepth scope row.returnType) := by
  cases h_index : row.returnType with
  | none => exact fails_intern _
  | some index => exact fails_typeIndex maxDepth scope h (.returnType h_row h_index)

theorem fails_method (c : ResolvedClass) {row : MethodDefinition} (h_row : row ∈ m.methods) :
    Fails m.Explains (method m maxDepth scope owner c row) := by
  refine (fails_lift (explains_string (.methodName h_row))).bind fun name => ?_
  refine (fails_returnType maxDepth scope h h_row).bind fun returnType => ?_
  refine (fails_parameters maxDepth scope h h_row).bind fun parameters => ?_
  exact fails_get.bind fun _ => fails_pure _

theorem fails_methods (c : ResolvedClass) {row : TypeDefinition} (h_row : row ∈ m.typeDefinitions) :
    Fails m.Explains (methods m maxDepth scope owner c row) := by
  refine fails_read (explains_memberRows rfl (.methods h_row)) fun rows h_rows => ?_
  have h_mem := mem_of_memberRows h_rows
  exact (fails_mapM fun row h_row => fails_method maxDepth scope owner h c (h_mem row h_row)).bind
    fun _ => fails_pure _

theorem fails_nested (c : ResolvedClass) {row : TypeDefinition} (h_row : row ∈ m.typeDefinitions) :
    Fails m.Explains (nested m owner c row) := by
  unfold nested
  split
  · exact fails_pure _
  · refine fails_read (explains_memberRows rfl (.nestedTypes h_row)) fun rows h_rows => ?_
    have h_mem := mem_of_memberRows h_rows
    exact fails_mapM fun entry h_entry =>
      fails_nestedClass owner h c.definition (h_mem entry h_entry)

theorem fails_underlying (c : ResolvedClass) {row : TypeDefinition}
    (h_row : row ∈ m.typeDefinitions) :
    Fails m.Explains (underlying m maxDepth scope c row) := by
  unfold underlying
  split
  next index h_index =>
    split
    · exact (fails_typeIndex maxDepth scope h (.elementType h_row h_index)).map _
    · exact fails_pure _
  next => exact fails_pure _

theorem fails_members {c : ResolvedClass} (h_names : m.Names c.definition) :
    Fails m.Explains (members m maxDepth owner c) := by
  refine fails_read (explains_typeDefinition h_names) fun row h_row => ?_
  have h_mem := mem_of_typeDefinition h_row
  dsimp only
  refine (fails_underlying maxDepth _ h c h_mem).bind fun underlying => ?_
  refine (fails_fields maxDepth _ owner h h_mem).bind fun fields => ?_
  refine (fails_methods maxDepth _ owner h c h_mem).bind fun methods => ?_
  exact (fails_nested owner h c h_mem).bind fun nested => fails_pure _

theorem fails_complete {arena : Arena} (h_sound : arena.Sound m) {c : ResolvedClass}
    (h_c : arena.class? owner = some c) :
    Raises m.Explains (result (complete m maxDepth owner) arena) := by
  intro e h_e
  -- the definition of a class has a chain, and so it exists
  obtain ⟨lineage, k, h_traces, h_shows⟩ := h_sound.classes owner c h_c
  have h_lt : c.definition < m.typeDefinitions.size := by
    rw [ResolvedClass.definition, h_shows.key.1]
    exact h_traces.lt_size
  exact fails_members maxDepth owner h (names_of_lt h_lt) arena e
    ((complete_error_iff maxDepth h_c).mp h_e)

end Completion

/-! ### Looking up an index that points outside -/

/-- The step begins with looking up an index. -/
inductive LooksUp (m : Metadata) : StoredIndex → {α : Type} → Resolving α → Prop
  /-- A name. -/
  | name (index : Nat) : LooksUp m (.name index) (liftM (m.string index) : Resolving String)
  /-- The type of the descriptor with an index. -/
  | type (maxDepth : Nat) (scope : GenericScope) (index : Nat) :
      LooksUp m (.type index) (typeIndex m maxDepth scope index)
  /-- The class of a definition. -/
  | definition (index : Nat) : LooksUp m (.definition index) (definition m index)
  /-- The argument for a generic parameter. -/
  | parameter (scope : GenericScope) (index : Nat) (ofMethod : Bool) :
      LooksUp m (.parameter index) (parameter m scope index ofMethod)
  /-- The generic container of a definition. -/
  | container {row : TypeDefinition} {index : Nat} (stored : row.genericContainerIndex = some index)
      (missing : m.genericContainers[index]? = none) :
      LooksUp m (.container index) (liftM (m.parametersOf row) : Resolving (List GenericParameter))
  /-- The generic parameters of a definition. -/
  | parameters {row : TypeDefinition} {index : Nat} {c : GenericContainer}
      (stored : row.genericContainerIndex = some index)
      (found : m.genericContainers[index]? = some c) :
      LooksUp m (.parameters index c.parameterStart c.parameterCount)
        (liftM (m.parametersOf row) : Resolving (List GenericParameter))
  /-- The members of an owner. -/
  | members {α : Type} {table : MemberTable} {entries : Array α}
      (size : entries.size = m.sizeOf table) (start : Int) (count : Nat) :
      LooksUp m (.members table start count)
        (liftM (Metadata.memberRows table entries start count) : Resolving (List α))
  /-- An entry among the nested types. -/
  | nested (owner : ClassId) (index : Nat) (entry : Int) :
      LooksUp m (.nested index entry) (nestedClass m owner index entry)

theorem string_eq_error {index : Nat} (h : (StoredIndex.name index).IsOutside m) :
    m.string index = .error .outOfBounds := by
  unfold Metadata.string StringHeap.get
  exact if_pos h

/-- Only a definition that has a chain has a class. -/
theorem find?_eq_none_of_not_traces {arena : Arena} (h_sound : arena.Sound m) {index : Nat}
    (h : ∀ lineage, ¬ m.Traces index lineage) : arena.find? (.ofDefinition index) = none := by
  rw [Option.eq_none_iff_forall_ne_some]
  intro id h_found
  obtain ⟨c, lineage, -, -, h_traces, -⟩ := h_sound.shows_of_definition h_found
  exact h lineage h_traces

theorem definition_outside {arena : Arena} (h_sound : arena.Sound m) {index : Nat}
    (h : (StoredIndex.definition index).IsOutside m) :
    result (definition m index) arena = .error ((StoredIndex.definition index).error m) ∧
      after (definition m index) arena = arena := by
  have h_none : arena.find? (.ofDefinition index) = none :=
    find?_eq_none_of_not_traces h_sound fun _ h_traces =>
      absurd h_traces.lt_size (Nat.not_lt.mpr h)
  rw [definition, definitionWithin, result_get_bind, after_get_bind, h_none]
  exact bind_of_error ((decides_typeDefinition index).eq_error h)

/-- **An index that points outside** of its target ends the step with the error of the index, and
nothing is changed. -/
theorem LooksUp.fails {i : StoredIndex} {α : Type} {x : Resolving α} (h : LooksUp m i x)
    (h_outside : i.IsOutside m) {arena : Arena} (h_sound : arena.Sound m) :
    result x arena = .error (i.error m) ∧ after x arena = arena := by
  cases h with
  | name index => exact ⟨string_eq_error h_outside, rfl⟩
  | type maxDepth scope index => exact bind_of_error ((decides_descriptor index).eq_error h_outside)
  | definition index => exact definition_outside h_sound h_outside
  | parameter scope index ofMethod =>
    exact bind_of_error ((decides_genericParameter index).eq_error h_outside)
  | container stored missing =>
    exact ⟨(decides_parametersOf_of_none stored missing).eq_error h_outside, rfl⟩
  | parameters stored found => exact ⟨(decides_parametersOf stored found).eq_error h_outside, rfl⟩
  | members size start count =>
    exact ⟨(decides_memberRows size start count).eq_error h_outside, rfl⟩
  | nested owner index entry =>
    cases entry with
    | ofNat position =>
      have h_definition : (StoredIndex.definition position).IsOutside m :=
        h_outside.elim (fun h => absurd h (Int.natCast_nonneg position).not_gt) Int.ofNat_le.mp
      obtain ⟨h_result, h_after⟩ := definition_outside h_sound h_definition
      obtain ⟨h_nested, h_same⟩ := bind_of_error h_result
      exact ⟨h_nested, h_same.trans h_after⟩
    | negSucc n => exact ⟨rfl, rfl⟩

end Resolving

/-! ### Runs -/

/-- The name of a definition is outside of the heap of names, or its namespace is. -/
def Metadata.NamedOutside (m : Metadata) (row : TypeDefinition) : Prop :=
  m.strings.data.size ≤ row.nameIndex ∨
    (∃ name, m.string row.nameIndex = .ok name) ∧ m.strings.data.size ≤ row.namespaceIndex

namespace Resolving

variable {m : Metadata} {row : TypeDefinition}

/-- A definition on its own that is named outside of the heap has no chain. -/
theorem not_traces_of_namedOutside (h : m.NamedOutside row) (h_top : row.declaringTypeIndex = none)
    {d : Nat} (h_row : m.typeDefinition d = .ok row) (lineage : Lineage) :
    ¬ m.Traces d lineage := by
  intro h_traces
  cases h_traces with
  | top at_row alone made =>
    cases at_row.symm.trans h_row
    -- a chain has both a name and a namespace
    obtain ⟨name, h_name, made⟩ := except_bind_eq_ok_iff.mp made
    obtain ⟨namespaceName, h_namespace, -⟩ := except_bind_eq_ok_iff.mp made
    rcases h with h | ⟨-, h⟩
    · rw [string_eq_error h] at h_name
      cases h_name
    · have h_error : m.namespaceOf row none = .error .outOfBounds := string_eq_error h
      rw [Option.map_none, h_error] at h_namespace
      cases h_namespace
  | nested at_row inside traced made =>
    cases at_row.symm.trans h_row
    obtain ⟨index, -, h_index, -⟩ := inside
    rw [h_top] at h_index
    cases h_index

/-- So it never has a class, and whoever asks for one is told that something is out of bounds. -/
theorem definition_namedOutside (h : m.NamedOutside row) (h_top : row.declaringTypeIndex = none)
    {d : Nat} (h_row : m.typeDefinition d = .ok row) {arena : Arena} (h_sound : arena.Sound m) :
    result (definition m d) arena = .error .outOfBounds := by
  have h_none : arena.find? (.ofDefinition d) = none :=
    find?_eq_none_of_not_traces h_sound (not_traces_of_namedOutside h h_top h_row)
  rw [definition, definitionWithin, result_get_bind, h_none]
  dsimp only
  rw [h_row]
  -- there is nothing around the definition, so that its name comes first
  show result (declaringClass m _ row >>= _) arena = _
  rw [declaringClass, h_top]
  show result (create m d row none) arena = _
  have h_read {α : Type} {x : Except Error α} {r : Except Error α} (h : x = r) :
      result (liftM x : Resolving α) arena = r := h
  rcases h with h | ⟨⟨name, h_name⟩, h⟩
  · exact (bind_of_error (h_read (string_eq_error h))).1
  · have h_error : m.namespaceOf row none = .error .outOfBounds := string_eq_error h
    exact (bind_of_ok (h_read h_name)).1.trans (bind_of_error (h_read h_error)).1

end Resolving

namespace Resolver

variable {m : Metadata} {config : Config} {resolver final : Resolver} {visits : List Visit}

theorem result_of_attemptFailure? {α : Type} {step : Resolving α}
    {describe : Arena → Option Nat × String} {f : Failure}
    (h : resolver.attemptFailure? step describe = some f) :
    Resolving.result step resolver.arena = .error f.error := by
  rw [attemptFailure?] at h
  split at h
  · cases h
  next e h_e =>
    cases h
    exact h_e

/-- **A visit** fails because of something that is stored. -/
theorem explains_of_failure? {pair : VersionPair} {width : PointerWidth}
    (h : m.registration.layouts.IsFor pair width) (h_sound : resolver.arena.Sound m) {v : Visit}
    (h_possible : v.Possible m config resolver.arena) {f : Failure}
    (h_f : failure? m config resolver v = some f) : m.Explains f.error := by
  cases v with
  | definition d =>
    rw [failure?] at h_f
    exact Resolving.fails_definition h (names_of_lt h_possible) _ _ (result_of_attemptFailure? h_f)
  | listing entry =>
    have h_listed : entry.1 ∈ m.registration.genericClasses := by
      have h_entry : entry ∈ m.listings config := h_possible
      unfold Metadata.listings at h_entry
      split at h_entry
      · exact Array.mem_toList_iff.mp (List.fst_mem_of_mem_zipIdx h_entry)
      · exact absurd h_entry List.not_mem_nil
    rw [failure?] at h_f
    exact Resolving.fails_listed config.maxGenericDepth h h_listed _ _
      (result_of_attemptFailure? h_f)
  | «class» i =>
    obtain ⟨c, h_c⟩ := Arena.hasClass_iff.mp h_possible
    rw [failure?] at h_f
    exact Resolving.fails_complete config.maxGenericDepth ⟨i⟩ h h_sound h_c _
      (result_of_attemptFailure? h_f)

/-- Every failure that is written down is explained by what is stored. -/
def Explained (m : Metadata) (resolver : Resolver) : Prop :=
  ∀ (code : List Nat) (f : Failure), resolver.failures[code]? = some f → m.Explains f.error

theorem explained_empty : Explained m .empty := by
  intro code f h_f
  exact absurd h_f (by simp [empty])

theorem Explained.make {pair : VersionPair} {width : PointerWidth} (h : Explained m resolver)
    (h_layouts : m.registration.layouts.IsFor pair width) (h_sound : resolver.arena.Sound m)
    {v : Visit} (h_possible : v.Possible m config resolver.arena) :
    Explained m (make m config resolver v) := by
  intro code f h_f
  rcases getElem?_failures_make.mp h_f with ⟨h_new, -⟩ | ⟨-, h_old⟩
  · exact explains_of_failure? h_layouts h_sound h_possible h_new
  · exact h code f h_old

/-- **Visits**, by induction on them. -/
theorem Makes.explained {pair : VersionPair} {width : PointerWidth}
    (h_makes : Makes m config visits resolver final)
    (h_layouts : m.registration.layouts.IsFor pair width) (h_sound : resolver.arena.Sound m)
    (h : Explained m resolver) : Explained m final := by
  induction h_makes with
  | stay => exact h
  | visit h_possible _ ih =>
    exact ih (sound_make h_sound _) (h.make h_layouts h_sound h_possible)

theorem RunsFrom.explained {pair : VersionPair} {width : PointerWidth}
    (h_runs : RunsFrom m config resolver final)
    (h_layouts : m.registration.layouts.IsFor pair width) (h_sound : resolver.arena.Sound m)
    (h : Explained m resolver) : Explained m final := by
  obtain ⟨visits, h_makes, -⟩ := h_runs.exists_makes
  exact h_makes.explained h_layouts h_sound h

/-- **Requests.** Only a run writes failures down. -/
theorem Explained.serve {pair : VersionPair} {width : PointerWidth} (h : Explained m resolver)
    (h_layouts : m.registration.layouts.IsFor pair width) (h_sound : resolver.arena.Sound m)
    (request : Request) : Explained m (resolver.serve m config request) := by
  cases request with
  | run => exact (runsFrom_run h_sound).explained h_layouts h_sound h
  | _ => exact h

theorem Reachable.explained {pair : VersionPair} {width : PointerWidth}
    (h : Reachable m config resolver) (h_layouts : m.registration.layouts.IsFor pair width) :
    Explained m resolver := by
  induction h with
  | empty => exact explained_empty
  | serve request h_before _ ih => exact ih.serve h_layouts h_before.sound request
  | run h_before h_runs ih => exact h_runs.explained h_layouts h_before.sound ih

/-- **A name outside of the heap** is not reported as an index that dangles, whenever it is that the
definition is visited. -/
theorem Makes.exists_failure_of_namedOutside (h : Makes m config visits resolver final)
    (h_sound : resolver.arena.Sound m) (h_nodup : visits.Nodup) {row : TypeDefinition}
    (h_named : m.NamedOutside row) (h_top : row.declaringTypeIndex = none) {d : Nat}
    (h_row : m.typeDefinition d = .ok row) (h_d : .definition d ∈ visits) :
    ∃ f ∈ final.report.failures, f.definition = some d ∧ f.error = .outOfBounds := by
  induction h with
  | stay => exact absurd h_d List.not_mem_nil
  | @visit v visits resolver final h_possible h_rest ih =>
    obtain ⟨h_new, h_nodup⟩ := List.nodup_cons.mp h_nodup
    rcases List.mem_cons.mp h_d with rfl | h_later
    · have h_fails := Resolving.definition_namedOutside h_named h_top h_row h_sound
      have h_failure : failure? m config resolver (.definition d) =
          some ⟨some d, s!"type definition {d}", .outOfBounds⟩ := by
        rw [failure?, attemptFailure?, h_fails]
      -- no later visit writes anything down in its place
      have h_written := h_rest.failure_written h_possible h_new h_failure
      exact ⟨_, mem_report_iff.mpr ⟨_, h_written⟩, rfl, rfl⟩
    · exact ih (sound_make h_sound v) h_nodup h_later

end Resolver

/-! ### A definition without a name -/

/-- The row of a definition on its own, with a name at place 16. -/
def Draft.namelessRow (field : Field) : Nat :=
  if field = .nameIndex then 16 else if field = .declaringTypeIndex then 2 ^ 32 - 1 else 0

/-- One definition, named outside of a short heap of names. -/
def Draft.nameless : Draft where
  pair := ⟨⟨27, 1⟩, ⟨29, 0⟩⟩
  contents
    | .typeDefinitions => [namelessRow]
    | .strings => [104, 105, 0]
    | id => id.shape.empty
  others _ := 0

theorem Draft.fits_nameless : Draft.nameless.Fits where
  supported := by decide
  contents id _ := by
    cases id with
    | typeDefinitions =>
      show ∀ row ∈ [namelessRow],
        ∀ spec ∈ (RecordKind.typeDefinition.blobLayout nameless.pair).fields,
          row spec.field < 256 ^ spec.width.bytes .bits32
      decide
    | strings => trivial
    | _ => exact Shape.fits_empty _ _
  others _ := Nat.two_pow_pos 32
  length := by decide +kernel

/-- What `Draft.nameless` is decoded to. -/
theorem Draft.decode_nameless : ∃ m row,
    Metadata.decode Draft.nameless.blob .zeros Draft.nameless.pair = .ok m ∧
      m.typeDefinition 0 = .ok row ∧ row.nameIndex = 16 ∧ row.declaringTypeIndex = none ∧
      m.strings.data.size = 3 ∧ m.registration.types.size = 0 := by
  have h_tables : (Registration.read .zeros Draft.nameless.pair).toOption.map (·.types.size) =
      some 0 := by
    decide +kernel
  obtain ⟨registration, h_registration, h_types⟩ := Option.map_eq_some_iff.mp h_tables
  have h_read : Registration.read .zeros Draft.nameless.pair = .ok registration := by
    cases h_result : Registration.read .zeros Draft.nameless.pair with
    | ok tables =>
      rw [h_result] at h_registration
      exact congrArg Except.ok (Option.some.inj h_registration)
    | error e =>
      rw [h_result] at h_registration
      cases h_registration
  have h_decode := Metadata.decode_eq_ok fits_nameless.supported (read_blob fits_nameless)
    (fun _ _ => inside_blob) h_read
  have h_holds (id : SectionId) := Metadata.holds_ofSections nameless.header registration
    (fits_present fits_nameless id) (bytesOf_blob nameless id)
  -- the one row, as far as it is looked at
  have h_table : HoldsRows nameless.pair _ [namelessRow] := h_holds .typeDefinitions
  have h_values : (([namelessRow].mapM fun values => Row.ofRecord
      ((RecordKind.typeDefinition.blobLayout nameless.pair).record values) :
        Except Error (List TypeDefinition)).toOption.map
          (·.map fun row => (row.nameIndex, row.declaringTypeIndex))) = some [(16, none)] := by
    decide
  have h_rows := (congrArg (fun rows => rows.toOption.map
    (·.map fun row : TypeDefinition => (row.nameIndex, row.declaringTypeIndex))) h_table).symm.trans
      h_values
  obtain ⟨row, h_list, h_row⟩ := List.map_eq_singleton_iff.mp (Option.some.inj h_rows)
  refine ⟨_, row, h_decode, ?_, congrArg Prod.fst h_row, congrArg Prod.snd h_row, ?_, h_types⟩
  · unfold Metadata.typeDefinition
    rw [← Array.getElem?_toList, h_list]
    rfl
  · have h_heap := h_holds .strings
    exact congrArg List.length h_heap

/-! ### All failures -/

/-- **What failures come from.** A step that looks up an index which points outside of its target
fails with the error of the index and changes nothing, and the error says that the index dangles
unless it is that of a name. After every run, from any state that a caller can see, whatever is
reported comes from an index that is stored and points outside, from a reference that cannot be
followed otherwise, from a name whose bytes are no terminated UTF-8 text, from an address that the
image does not back or from a descriptor of an unknown kind, each with its own error. A definition
on its own that is named outside of the heap of names is reported as out of bounds. -/
theorem Resolver.failures_explained {data : ByteArray} {source : RegistrationSource}
    {pair : VersionPair} {m : Metadata} (h : Metadata.decode data source pair = .ok m)
    (config : Config) :
    (∀ {i : StoredIndex} {α : Type} {x : Resolving α}, Resolving.LooksUp m i x → i.IsOutside m →
      (∀ arena, arena.Sound m →
        Resolving.result x arena = .error (i.error m) ∧ Resolving.after x arena = arena) ∧
      ((i.error m).isRecoverable = true ↔ ∀ index, i ≠ .name index)) ∧
    ∀ resolver final, Resolver.Reachable m config resolver →
      Resolver.RunsFrom m config resolver final →
      (∀ f ∈ final.report.failures, m.Explains f.error) ∧
      ∀ d row, m.typeDefinition d = .ok row → row.declaringTypeIndex = none → m.NamedOutside row →
        ∃ f ∈ final.report.failures, f.definition = some d ∧ f.error = .outOfBounds ∧
          f.error.isRecoverable = false := by
  obtain ⟨header, registration, -, -, -, h_read, rfl⟩ := Metadata.decode_eq_ok_iff.mp h
  have h_layouts := Registration.isFor_of_read h_read
  refine ⟨fun h_x h_outside => ⟨fun arena h_sound => h_x.fails h_outside h_sound,
    StoredIndex.isRecoverable_error_iff _ _⟩, fun resolver final h_reachable h_runs => ?_⟩
  obtain ⟨visits, h_makes, h_all⟩ := h_runs.exists_makes
  constructor
  · intro f h_f
    obtain ⟨code, h_f⟩ := Resolver.mem_report_iff.mp h_f
    have h_explained := h_makes.explained h_layouts h_reachable.sound
      (h_reachable.explained h_layouts)
    exact h_explained code f h_f
  · intro d row h_row h_top h_named
    have h_possible : (Visit.definition d).Possible _ config final.arena :=
      Metadata.lt_size_of_typeDefinition h_row
    obtain ⟨f, h_f, h_definition, h_error⟩ := h_makes.exists_failure_of_namedOutside
      h_reachable.sound (h_all.nodup_iff.mpr (Resolver.nodup_agenda _ config _)) h_named h_top h_row
      (h_all.mem_iff.mpr (Resolver.mem_agenda_of_possible h_possible))
    refine ⟨f, h_f, h_definition, h_error, ?_⟩
    rw [h_error]
    rfl

/-- In `Draft.nameless` there are no descriptors, so that every index of one points outside; and the
only definition is reported as out of bounds. -/
theorem Resolver.failures_explained_nameless : ∃ m row,
    Metadata.decode Draft.nameless.blob .zeros Draft.nameless.pair = .ok m ∧
      (StoredIndex.type 0).IsOutside m ∧
      Resolving.result (Resolving.typeIndex m 1 .empty 0) .empty =
        .error (.unresolved (.typeIndex 0 0)) ∧
      ((StoredIndex.type 0).error m).isRecoverable = true ∧
      m.typeDefinition 0 = .ok row ∧ row.declaringTypeIndex = none ∧ m.NamedOutside row ∧
      ∃ f ∈ (Resolver.empty.run m .minimal).report.failures, f.definition = some 0 ∧
        f.error = .outOfBounds ∧ f.error.isRecoverable = false ∧ m.Explains f.error := by
  obtain ⟨m, row, h_decode, h_row, h_name, h_top, h_heap, h_types⟩ := Draft.decode_nameless
  obtain ⟨h_looks, h_runs⟩ := Resolver.failures_explained h_decode .minimal
  have h_outside : (StoredIndex.type 0).IsOutside m := Nat.le_zero.mpr h_types
  have h_named : m.NamedOutside row := by
    left
    rw [h_heap, h_name]
    decide
  obtain ⟨h_fails, h_recoverable⟩ := h_looks (.type 1 .empty 0) h_outside
  obtain ⟨h_result, -⟩ := h_fails .empty (Arena.sound_empty m)
  rw [StoredIndex.error, h_types] at h_result
  obtain ⟨h_explained, h_reported⟩ := h_runs .empty _ .empty
    (Resolver.runsFrom_run (Arena.sound_empty m))
  obtain ⟨f, h_f, h_definition, h_error, h_hard⟩ := h_reported 0 row h_row h_top h_named
  refine ⟨m, row, h_decode, h_outside, h_result, h_recoverable.mpr fun index h => ?_, h_row, h_top,
    h_named, f, h_f, h_definition, h_error, h_hard, h_explained f h_f⟩
  cases h

end GlobalMetadata
