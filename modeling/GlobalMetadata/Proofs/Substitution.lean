import GlobalMetadata.Proofs.Atomicity

/-!
# Nothing of the type is left open

A member of an instantiation is resolved with the arguments of its class in scope. They take the
place of the generic parameters that the descriptors of the member mention, however deeply arrays,
pointers, references and further instantiations nest around them.

What is open in the result is accounted for (`Meaning.accounts_descriptorWithin`): it came with an
argument, or it is a parameter that is mentioned and has no argument. This goes by induction on how
many descriptors may be followed into each other. Instantiations need a word: their arguments may
be dropped, since the definition itself stands for one with its own parameters and for one that is
cut off, but then nothing is left open at all.

So if the arguments of a class are closed and there are enough of them for the parameters of types
that its members mention, then all that is open in the members are parameters of methods without an
argument (`CellState.substitution_closes`).
-/

namespace GlobalMetadata

open Relation

/-! ### Open parameters -/

namespace TypeTerm

/-- A term has an open parameter in it, be it in an argument of a class. -/
inductive LeavesOpen (position : Nat) (ofMethod : Bool) : TypeTerm → Prop
  /-- The term is the parameter. -/
  | parameter (name : String) : LeavesOpen position ofMethod (.parameter position ofMethod name)
  /-- An argument has it. -/
  | argument {definition : Nat} {classArgs methodArgs : List TypeTerm} {t : TypeTerm}
      (mem : t ∈ classArgs ++ methodArgs) (inner : LeavesOpen position ofMethod t) :
      LeavesOpen position ofMethod (.class definition classArgs methodArgs)
  /-- The element of an array has it. -/
  | array {element : TypeTerm} {rank : Nat} (inner : LeavesOpen position ofMethod element) :
      LeavesOpen position ofMethod (.array element rank)
  /-- What a pointer points to has it. -/
  | pointer {element : TypeTerm} (inner : LeavesOpen position ofMethod element) :
      LeavesOpen position ofMethod (.pointer element)
  /-- What a reference refers to has it. -/
  | byref {element : TypeTerm} (inner : LeavesOpen position ofMethod element) :
      LeavesOpen position ofMethod (.byref element)

/-- A term without open parameters. -/
def Closed (t : TypeTerm) : Prop :=
  ∀ position ofMethod, ¬ t.LeavesOpen position ofMethod

/-- Only parameters of methods are open, and none of the first `count`. -/
def OpenBeyond (count : Nat) (t : TypeTerm) : Prop :=
  ∀ position ofMethod, t.LeavesOpen position ofMethod → ofMethod = true ∧ count ≤ position

/-- A definition has no arguments that could be open. -/
theorem closed_ofDefinition (definition : Nat) : (KeyTerm.ofDefinition definition).type.Closed := by
  intro position ofMethod h_open
  cases h_open with
  | argument mem inner => exact absurd mem List.not_mem_nil

end TypeTerm

/-- A key without open parameters. -/
def KeyTerm.Closed (k : KeyTerm) : Prop :=
  ∀ t ∈ k.classArgs ++ k.methodArgs, t.Closed

/-! ### Descriptors inside each other -/

namespace Metadata

variable (m : Metadata)

/-- The argument list at an address has a descriptor in it. -/
def ListsArgument (address : Nat) (inner : Descriptor) : Prop :=
  address ≠ 0 ∧ ∃ inst addresses, m.registration.genericInstAt address = .ok inst ∧
    inst.arguments m.registration.image = .ok addresses ∧
      ∃ a ∈ addresses, m.registration.typeAt a = .ok inner

/-- A descriptor stands right inside another one. -/
inductive Embeds (d : Descriptor) : Descriptor → Prop
  /-- As what a pointer points to, or as an element. -/
  | element {address : Nat} {inner : Descriptor} (payload : d.payload = .element address)
      (at_address : m.registration.typeAt address = .ok inner) : Embeds d inner
  /-- As the element of an array with a shape. -/
  | array {address : Nat} {shape : ArrayShape} {inner : Descriptor}
      (payload : d.payload = .array address)
      (at_shape : m.registration.arrayTypeAt address = .ok shape)
      (at_address : m.registration.typeAt shape.element = .ok inner) : Embeds d inner
  /-- As an argument of an instantiation. -/
  | argument {address list : Nat} {generic : GenericClass} {inner : Descriptor}
      (payload : d.payload = .instantiation address)
      (at_generic : m.registration.genericClassAt address = .ok generic)
      (its_list : list = generic.classInst ∨ list = generic.methodInst)
      (listed : m.ListsArgument list inner) : Embeds d inner

/-- A descriptor mentions a generic parameter of a type or of a method, at any nesting. -/
def Mentions (d : Descriptor) (ofMethod : Bool) (row : GenericParameter) : Prop :=
  ∃ inner index, ReflTransGen m.Embeds d inner ∧ inner.payload = .parameter index ∧
    decide (inner.kind = .mVar) = ofMethod ∧ m.genericParameter index = .ok row

/-- The descriptors of the fields of a definition, of the results of its methods and of their
parameters. -/
inductive MemberDescriptor (definition : Nat) : Descriptor → Prop
  /-- The type of a field. -/
  | field {row : TypeDefinition} {rows : List FieldDefinition} {field : FieldDefinition}
      {index : Nat} {d : Descriptor} (at_row : m.typeDefinition definition = .ok row)
      (run : memberRows .field m.fields row.fieldStart row.fieldCount = .ok rows)
      (mem : field ∈ rows) (typed : field.typeIndex = some index)
      (at_index : m.descriptor index = .ok d) : MemberDescriptor definition d
  /-- The result of a method. -/
  | result {row : TypeDefinition} {rows : List MethodDefinition} {method : MethodDefinition}
      {index : Nat} {d : Descriptor} (at_row : m.typeDefinition definition = .ok row)
      (run : memberRows .method m.methods row.methodStart row.methodCount = .ok rows)
      (mem : method ∈ rows) (typed : method.returnType = some index)
      (at_index : m.descriptor index = .ok d) : MemberDescriptor definition d
  /-- The type of a parameter of a method. -/
  | parameter {row : TypeDefinition} {rows : List MethodDefinition} {method : MethodDefinition}
      {parameters : List ParameterDefinition} {parameter : ParameterDefinition}
      {index : Nat} {d : Descriptor} (at_row : m.typeDefinition definition = .ok row)
      (run : memberRows .method m.methods row.methodStart row.methodCount = .ok rows)
      (mem : method ∈ rows)
      (inner_run : memberRows .parameter m.parameters method.parameterStart
        method.parameterCount = .ok parameters)
      (inner_mem : parameter ∈ parameters) (typed : parameter.typeIndex = some index)
      (at_index : m.descriptor index = .ok d) : MemberDescriptor definition d

/-- A key has an argument for every parameter of a type that the members of its definition
mention. -/
def Covers (k : KeyTerm) : Prop :=
  ∀ d row, m.MemberDescriptor k.definition d → m.Mentions d false row →
    row.number < k.classArgs.length

end Metadata

namespace Meaning

variable {m : Metadata} {maxDepth : Nat} {scope : TermScope}

/-! ### What is open is accounted for -/

/-- Whatever is open in a term comes with an argument in scope, or is a parameter that a descriptor
mentions and for which there is no argument. -/
def Accounts (m : Metadata) (scope : TermScope) (d : Descriptor) (t : TypeTerm) : Prop :=
  ∀ position ofMethod, t.LeavesOpen position ofMethod →
    (∃ level, ∃ arg ∈ scope.args level, arg.LeavesOpen position ofMethod) ∨
      ∃ row, m.Mentions d ofMethod row ∧ row.number = position ∧
        (scope.args ofMethod).length ≤ position

section Accounts

variable {d inner : Descriptor} {t : TypeTerm}

theorem Accounts.of_closed (h : t.Closed) : Accounts m scope d t :=
  fun position ofMethod h_open => absurd h_open (h position ofMethod)

/-- What is mentioned inside a descriptor is mentioned by it. -/
theorem Accounts.of_embeds (h : Accounts m scope inner t) (h_embeds : m.Embeds d inner) :
    Accounts m scope d t := by
  intro position ofMethod h_open
  refine (h position ofMethod h_open).imp_right ?_
  rintro ⟨row, ⟨last, index, h_path, h_last⟩, h_row⟩
  exact ⟨row, ⟨last, index, .head h_embeds h_path, h_last⟩, h_row⟩

/-- Arrays, pointers and references have nothing open but what is inside. -/
theorem Accounts.of_part {part : TypeTerm} (h : Accounts m scope d part)
    (h_part : ∀ position ofMethod, t.LeavesOpen position ofMethod →
      part.LeavesOpen position ofMethod) : Accounts m scope d t :=
  fun position ofMethod h_open => h position ofMethod (h_part position ofMethod h_open)

theorem Accounts.array (h : Accounts m scope d t) (rank : Nat) :
    Accounts m scope d (.array t rank) :=
  h.of_part fun _ _ h_open => by cases h_open; assumption

theorem Accounts.pointer (h : Accounts m scope d t) : Accounts m scope d (.pointer t) :=
  h.of_part fun _ _ h_open => by cases h_open; assumption

theorem Accounts.byref (h : Accounts m scope d t) : Accounts m scope d (.byref t) :=
  h.of_part fun _ _ h_open => by cases h_open; assumption

/-- A class has nothing open but what is in its arguments. -/
theorem Accounts.class {k : KeyTerm}
    (h : ∀ t ∈ k.classArgs ++ k.methodArgs, Accounts m scope d t) :
    Accounts m scope d k.type := by
  intro position ofMethod h_open
  cases h_open with
  | argument mem inner => exact h _ mem position ofMethod inner

end Accounts

section Descriptors

variable {d : Descriptor} {t : TypeTerm}

/-- **Parameters.** An argument takes the place of a parameter, if there is one. -/
theorem accounts_parameter {index : Nat} (h_payload : d.payload = .parameter index)
    (h : (parameter m scope index (d.kind = .mVar)).value = some t) : Accounts m scope d t := by
  obtain ⟨row, h_row, h⟩ := bind_value_eq_some_iff.mp h
  split at h
  next arg h_arg =>
    cases h
    exact fun position ofMethod h_open => .inl ⟨_, t, List.mem_of_getElem? h_arg, h_open⟩
  next h_none =>
    obtain ⟨name, -, h⟩ := bind_value_eq_some_iff.mp h
    cases h
    intro position ofMethod h_open
    cases h_open
    refine .inr ⟨row, ⟨d, index, .refl, h_payload, rfl, ?_⟩, rfl, ?_⟩
    · exact read_value_eq_some_iff.mp h_row
    · exact List.getElem?_eq_none_iff.mp h_none

variable {resolve : Descriptor → Meaning TypeTerm}

/-- An argument is what a descriptor of the list stands for. -/
theorem arguments_value {address : Nat} {ts : List TypeTerm}
    (h : (arguments m (atAddress m resolve) address).value = some ts) (h_t : t ∈ ts) :
    ∃ inner, m.ListsArgument address inner ∧ (resolve inner).value = some t := by
  unfold arguments at h
  split at h
  next =>
    cases h
    exact absurd h_t List.not_mem_nil
  next h_address =>
    obtain ⟨inst, h_inst, h⟩ := bind_value_eq_some_iff.mp h
    obtain ⟨addresses, h_addresses, h⟩ := bind_value_eq_some_iff.mp h
    obtain ⟨a, h_a, h_value⟩ := exists_left_of_forall₂ (forall₂_of_mapM_value h) h_t
    obtain ⟨inner, h_inner, h_value⟩ := bind_value_eq_some_iff.mp h_value
    refine ⟨inner, ⟨h_address, inst, addresses, ?_, ?_, a, h_a, ?_⟩, h_value⟩
    · exact read_value_eq_some_iff.mp h_inst
    · exact read_value_eq_some_iff.mp h_addresses
    · exact read_value_eq_some_iff.mp h_inner

/-- An instantiation stands for the definition itself or for the class of its key. -/
theorem instantiate_value {k : KeyTerm} (h : (instantiate m maxDepth k).value = some t) :
    t = (KeyTerm.ofDefinition k.definition).type ∨ t = k.type := by
  obtain ⟨lineage, -, h⟩ := bind_value_eq_some_iff.mp h
  split at h
  · cases h
    exact .inl rfl
  · split at h
    · obtain ⟨_, -, h⟩ := bind_value_eq_some_iff.mp h
      cases h
      exact .inl rfl
    · obtain ⟨k', h_k', h⟩ := bind_value_eq_some_iff.mp h
      obtain ⟨_, -, h_k'⟩ := bind_value_eq_some_iff.mp h_k'
      cases h_k'
      cases h
      exact .inr rfl

variable (h_resolve : ∀ inner t, m.Embeds d inner → (resolve inner).value = some t →
  Accounts m scope d t)

include h_resolve

/-- **Instantiations.** Where the arguments are dropped, nothing is open. -/
theorem accounts_instantiation {address : Nat} (h_payload : d.payload = .instantiation address)
    (h : (instantiation m maxDepth (atAddress m resolve) address).value = some t) :
    Accounts m scope d t := by
  obtain ⟨generic, h_generic, h⟩ := bind_value_eq_some_iff.mp h
  obtain ⟨row, -, h⟩ := bind_value_eq_some_iff.mp h
  obtain ⟨classArgs, h_class, h⟩ := bind_value_eq_some_iff.mp h
  obtain ⟨methodArgs, h_method, h⟩ := bind_value_eq_some_iff.mp h
  have h_generic := read_value_eq_some_iff.mp h_generic
  rcases instantiate_value h with rfl | rfl
  · exact .of_closed (TypeTerm.closed_ofDefinition row)
  · refine .class fun arg h_arg => ?_
    rcases List.mem_append.mp h_arg with h_arg | h_arg
    · obtain ⟨inner, h_listed, h_value⟩ := arguments_value h_class h_arg
      exact h_resolve inner arg (.argument h_payload h_generic (.inl rfl) h_listed) h_value
    · obtain ⟨inner, h_listed, h_value⟩ := arguments_value h_method h_arg
      exact h_resolve inner arg (.argument h_payload h_generic (.inr rfl) h_listed) h_value

theorem accounts_payload (h : (payload m maxDepth scope (atAddress m resolve) d).value = some t) :
    Accounts m scope d t := by
  unfold payload at h
  split at h
  next =>
    cases h
    exact .of_closed fun _ _ h_open => by cases h_open
  next =>
    split at h
    next =>
      cases h
      exact .of_closed fun _ _ h_open => by cases h_open
    next row _ =>
      obtain ⟨_, -, h⟩ := bind_value_eq_some_iff.mp h
      cases h
      exact .of_closed (TypeTerm.closed_ofDefinition row)
    next address h_payload =>
      obtain ⟨element, h_element, h⟩ := bind_value_eq_some_iff.mp h
      obtain ⟨inner, h_inner, h_element⟩ := bind_value_eq_some_iff.mp h_element
      have h_part := h_resolve inner element
        (.element h_payload (read_value_eq_some_iff.mp h_inner)) h_element
      split at h
      · cases h
        exact h_part.pointer
      · cases h
        exact h_part.byref
      · cases h
        exact h_part.array 1
    next address h_payload =>
      obtain ⟨shape, h_shape, h⟩ := bind_value_eq_some_iff.mp h
      obtain ⟨element, h_element, h⟩ := bind_value_eq_some_iff.mp h
      obtain ⟨inner, h_inner, h_element⟩ := bind_value_eq_some_iff.mp h_element
      cases h
      exact (h_resolve inner element (.array h_payload (read_value_eq_some_iff.mp h_shape)
        (read_value_eq_some_iff.mp h_inner)) h_element).array _
    next index h_payload => exact accounts_parameter h_payload h
    next address h_payload => exact accounts_instantiation h_resolve h_payload h

end Descriptors

/-- **Accounting.** By induction on the levels that a descriptor may be followed. -/
theorem accounts_descriptorWithin {levels : Nat} {d : Descriptor} {t : TypeTerm}
    (h : (descriptorWithin m maxDepth scope levels d).value = some t) : Accounts m scope d t := by
  induction levels generalizing d t with
  | zero => cases h
  | succ levels ih =>
    obtain ⟨type, h_type, h⟩ := bind_value_eq_some_iff.mp h
    have h_payload : Accounts m scope d type :=
      accounts_payload (fun inner t h_embeds h_value => (ih h_value).of_embeds h_embeds) h_type
    split at h
    · cases h
      exact h_payload.byref
    · cases h
      exact h_payload

end Meaning

/-! ### The types of members -/

namespace Meaning

variable {m : Metadata} {maxDepth : Nat} {scope : TermScope} {owner : KeyTerm}

theorem typeIndex_value {index : Nat} {t : TypeTerm}
    (h : (typeIndex m maxDepth scope index).value = some t) :
    ∃ d, m.descriptor index = .ok d ∧ (descriptor m maxDepth scope d).value = some t := by
  obtain ⟨d, h_d, h⟩ := bind_value_eq_some_iff.mp h
  exact ⟨d, read_value_eq_some_iff.mp h_d, h⟩

theorem field_value {row : FieldDefinition} {t : FieldTerm}
    (h : (field m maxDepth scope owner row).value = some t) :
    ∃ index d, row.typeIndex = some index ∧ m.descriptor index = .ok d ∧
      (descriptor m maxDepth scope d).value = some t.type := by
  obtain ⟨name, -, h⟩ := bind_value_eq_some_iff.mp h
  cases h_index : row.typeIndex with
  | none =>
    rw [h_index] at h
    cases h
  | some index =>
    rw [h_index] at h
    obtain ⟨d, h_d, h⟩ := bind_value_eq_some_iff.mp h
    obtain ⟨type, h_type, h⟩ := bind_value_eq_some_iff.mp h
    cases h
    exact ⟨index, d, rfl, read_value_eq_some_iff.mp h_d, h_type⟩

theorem methodParameter_value {row : ParameterDefinition} {t : ParameterTerm}
    (h : (methodParameter m maxDepth scope row).value = some t) :
    ∃ index d, row.typeIndex = some index ∧ m.descriptor index = .ok d ∧
      (descriptor m maxDepth scope d).value = some t.type := by
  obtain ⟨name, -, h⟩ := bind_value_eq_some_iff.mp h
  cases h_index : row.typeIndex with
  | none =>
    rw [h_index] at h
    cases h
  | some index =>
    rw [h_index] at h
    obtain ⟨type, h_type, h⟩ := bind_value_eq_some_iff.mp h
    cases h
    obtain ⟨d, h_d, h_type⟩ := typeIndex_value h_type
    exact ⟨index, d, rfl, h_d, h_type⟩

/-- Telling overloads apart does not change their types. -/
theorem exists_of_mem_identify {fs : List MethodTerm} {f : MethodTerm} (h : f ∈ identify fs) :
    ∃ f' ∈ fs, f.returnType = f'.returnType ∧ f.parameters = f'.parameters := by
  obtain ⟨i, h_i⟩ := List.mem_iff_getElem?.mp h
  obtain ⟨f', id, h_f', -, rfl⟩ := List.getElem?_zipWith_eq_some.mp h_i
  exact ⟨f', List.mem_of_getElem? h_f', rfl, rfl⟩

section Types

variable {row : TypeDefinition} (h_row : m.typeDefinition owner.definition = .ok row)

include h_row

theorem fieldType_value {fs : List FieldTerm}
    (h : (fields m maxDepth scope owner row).value = some fs) {f : FieldTerm} (h_f : f ∈ fs) :
    ∃ d, m.MemberDescriptor owner.definition d ∧
      (descriptor m maxDepth scope d).value = some f.type := by
  obtain ⟨rows, h_rows, h⟩ := bind_value_eq_some_iff.mp h
  obtain ⟨unsorted, h_unsorted, h⟩ := bind_value_eq_some_iff.mp h
  cases h
  obtain ⟨fieldRow, h_mem, h_value⟩ :=
    exists_left_of_forall₂ (forall₂_of_mapM_value h_unsorted) (List.mem_mergeSort.mp h_f)
  obtain ⟨index, d, h_index, h_d, h_value⟩ := field_value h_value
  exact ⟨d, .field h_row (read_value_eq_some_iff.mp h_rows) h_mem h_index h_d, h_value⟩

theorem methodType_value {fs : List MethodTerm}
    (h : (methods m maxDepth scope owner row).value = some fs) {f : MethodTerm} (h_f : f ∈ fs) :
    ∀ type ∈ f.returnType :: f.parameters.map (·.type), type = .void ∨
      ∃ d, m.MemberDescriptor owner.definition d ∧
        (descriptor m maxDepth scope d).value = some type := by
  obtain ⟨rows, h_rows, h⟩ := bind_value_eq_some_iff.mp h
  obtain ⟨unsorted, h_unsorted, h⟩ := bind_value_eq_some_iff.mp h
  cases h
  have h_rows := read_value_eq_some_iff.mp h_rows
  obtain ⟨f', h_f', h_result, h_parameters⟩ := exists_of_mem_identify h_f
  obtain ⟨methodRow, h_mem, h_value⟩ :=
    exists_left_of_forall₂ (forall₂_of_mapM_value h_unsorted) (List.mem_mergeSort.mp h_f')
  obtain ⟨_, -, h_value⟩ := bind_value_eq_some_iff.mp h_value
  obtain ⟨result, h_returns, h_value⟩ := bind_value_eq_some_iff.mp h_value
  obtain ⟨ps, h_ps, h_value⟩ := bind_value_eq_some_iff.mp h_value
  cases h_value
  rw [h_result, h_parameters]
  intro type h_type
  rcases List.mem_cons.mp h_type with rfl | h_type
  · cases h_index : methodRow.returnType with
    | none =>
      rw [h_index] at h_returns
      cases h_returns
      exact .inl rfl
    | some index =>
      rw [h_index] at h_returns
      obtain ⟨d, h_d, h_value⟩ := typeIndex_value h_returns
      exact .inr ⟨d, .result h_row h_rows h_mem h_index h_d, h_value⟩
  · obtain ⟨p, h_p, rfl⟩ := List.mem_map.mp h_type
    obtain ⟨parameterRows, h_parameterRows, h_ps⟩ := bind_value_eq_some_iff.mp h_ps
    obtain ⟨parameterRow, h_inner, h_value⟩ :=
      exists_left_of_forall₂ (forall₂_of_mapM_value h_ps) h_p
    obtain ⟨index, d, h_index, h_d, h_value⟩ := methodParameter_value h_value
    exact .inr ⟨d, .parameter h_row h_rows h_mem (read_value_eq_some_iff.mp h_parameterRows)
      h_inner h_index h_d, h_value⟩

end Types

/-- **Members have types from their descriptors**, with the arguments of their class in scope. Only
a method without a result has no descriptor for it. -/
theorem types_value {t : MembersTerm} (h : (members m maxDepth owner).value = some t) :
    ∀ type ∈ t.types, type = .void ∨ ∃ d, m.MemberDescriptor owner.definition d ∧
      (descriptor m maxDepth (.ofKey owner) d).value = some type := by
  obtain ⟨row, h_row, h⟩ := bind_value_eq_some_iff.mp h
  obtain ⟨_, -, h⟩ := bind_value_eq_some_iff.mp h
  obtain ⟨fields, h_fields, h⟩ := bind_value_eq_some_iff.mp h
  obtain ⟨methods, h_methods, h⟩ := bind_value_eq_some_iff.mp h
  obtain ⟨_, -, h⟩ := bind_value_eq_some_iff.mp h
  cases h
  have h_row := read_value_eq_some_iff.mp h_row
  intro type h_type
  rcases List.mem_append.mp h_type with h_type | h_type
  · obtain ⟨f, h_f, rfl⟩ := List.mem_map.mp h_type
    exact .inr (fieldType_value h_row h_fields h_f)
  · obtain ⟨f, h_f, h_type⟩ := List.mem_flatMap.mp h_type
    exact methodType_value h_row h_methods h_f type h_type

/-- **Substitution.** With closed arguments, and enough of them, a descriptor stands for a term in
which only parameters of methods are open. -/
theorem openBeyond_of_accounts {d : Descriptor} {t : TypeTerm} (h_closed : owner.Closed)
    (h_covers : ∀ row, m.Mentions d false row → row.number < owner.classArgs.length)
    (h : Accounts m (.ofKey owner) d t) : t.OpenBeyond owner.methodArgs.length := by
  intro position ofMethod h_open
  rcases h position ofMethod h_open with ⟨level, arg, h_arg, h_inner⟩ | ⟨row, h_row, rfl, h_beyond⟩
  · refine absurd h_inner (h_closed arg ?_ position ofMethod)
    cases level with
    | false => exact List.mem_append_left _ h_arg
    | true => exact List.mem_append_right _ h_arg
  · cases ofMethod with
    | false => exact absurd (h_covers row h_row) (Nat.not_lt.mpr h_beyond)
    | true => exact ⟨rfl, h_beyond⟩

end Meaning

/-! ### Classes -/

namespace CellState

variable {m : Metadata} {config : Config} {state : CellState}

/-- **Substitution is complete.** Take a class with members, in any state that callers and runs come
to. Its key stands for a key of terms; if the arguments in it are closed, and there is one for every
parameter of a type that the members of the definition mention at any nesting, then every field,
result and parameter of the class has a type in which no parameter of a type is open, and no
parameter of a method that has an argument in the key. -/
theorem substitution_closes (h_leads : Leads m config empty state) {id : ClassId}
    {c : ResolvedClass} {members : Members} (h_c : state.resolver.arena.class? id = some c)
    (h_members : c.members = some members) :
    ∃ k, state.resolver.arena.keyTerm? c.key = some k ∧
      (k.Closed → m.Covers k → ∀ type ∈ members.types,
        ∃ t, state.resolver.arena.term? type = some t ∧ t.OpenBeyond k.methodArgs.length) := by
  have h_kept := kept_empty.leads h_leads
  obtain ⟨k, t, h_k, h_t, h_reads⟩ := h_kept.meant id c members h_c h_members
  refine ⟨k, h_kept.sound.keyTerm?_eq h_k, fun h_closed h_covers type h_type => ?_⟩
  obtain ⟨term, h_term, h_unfolds⟩ := exists_left_of_forall₂ h_reads.types h_type
  refine ⟨term, h_kept.sound.term?_eq h_unfolds, ?_⟩
  rcases Meaning.types_value h_t term h_term with rfl | ⟨d, h_d, h_value⟩
  · exact fun _ _ h_open => by cases h_open
  · exact Meaning.openBeyond_of_accounts h_closed (fun row => h_covers d row h_d)
      (Meaning.accounts_descriptorWithin h_value)

end CellState

/-- `boxed` with its instantiation listed, where the second definition has a field, too: an array of
the generic parameter. -/
def Metadata.boxedFilled : Metadata :=
  { boxed with
    typeDefinitions := #[
      { nestedRow none with fieldStart := 0, fieldCount := 1 },
      { nestedRow none with genericContainerIndex := some 0, fieldStart := 1, fieldCount := 1 }]
    fields := #[⟨0, some 0, none⟩, ⟨0, some 2, none⟩]
    registration :=
      { boxed.registration with
        genericClasses := #[0x1000]
        types := #[⟨0, .genericInst, 0, false, false, .instantiation 0x1000⟩,
          ⟨0, .i4, 0, false, false, .none⟩,
          ⟨0, .szArray, 0, false, false, .element 0x40⟩,
          ⟨0, .var, 0, false, false, .parameter 0⟩]
        typeAddresses := #[0x10, 0x20, 0x30, 0x40] } }

namespace CellState

/-- The instantiation with an integer has an array of integers. -/
theorem substitution_closes_boxed :
    let config := { Config.minimal with materialize := true }
    let arena := (Resolver.empty.run .boxedFilled config).arena
    ∃ c members, arena.class? ⟨2⟩ = some c ∧ c.members = some members ∧
      arena.keyTerm? c.key = some Metadata.boxedKey ∧
        members.types.mapM arena.term? = some [.array (.primitive .i4) 1] ∧
          ∀ type ∈ members.types, ∃ t, arena.term? type = some t ∧ t.OpenBeyond 0 := by
  intro config arena
  have h_arena : arena = (Resolver.completeRange .boxedFilled 4 0 3
      (Resolver.empty.start .boxedFilled config)).arena :=
    congrArg Resolver.arena (Resolver.run_of_one_round (by decide +kernel) (by decide +kernel))
  -- the first two classes are those of the definitions
  have h_shown : (arena.class? ⟨2⟩ >>= fun c => c.members.map fun members =>
      (arena.keyTerm? c.key, members.types.mapM arena.term?)) =
        some (some Metadata.boxedKey, some [.array (.primitive .i4) 1]) := by
    rw [h_arena]
    decide +kernel
  obtain ⟨c, h_c, h_shown⟩ := Option.bind_eq_some_iff.mp h_shown
  obtain ⟨members, h_members, h_shown⟩ := Option.map_eq_some_iff.mp h_shown
  obtain ⟨h_key, h_types⟩ := Prod.mk.inj h_shown
  refine ⟨c, members, h_c, h_members, h_key, h_types, ?_⟩
  obtain ⟨cells, h_leads⟩ := leads_of_reachable
    (.serve .run .empty trivial : Resolver.Reachable .boxedFilled config _)
  obtain ⟨k, h_k, h_closes⟩ := substitution_closes h_leads h_c h_members
  cases h_key.symm.trans h_k
  refine h_closes ?_ ?_
  · intro t h_t position ofMethod h_open
    cases List.mem_singleton.mp h_t
    cases h_open
  · rintro d row - ⟨inner, index, -, -, -, h_row⟩
    -- there is but one generic parameter
    cases index with
    | zero =>
      cases h_row
      decide
    | succ index => cases h_row

end CellState

end GlobalMetadata
