import GlobalMetadata.Proofs.Meaning
import Mathlib.Data.Set.Finite.Lattice
import Mathlib.Data.Set.Finite.List
import Mathlib.Data.Finite.Prod

/-!
# The keys that can ever be asked for

Completing a class may ask for instantiations whose arguments are built from its own arguments, and
completing those may ask for more. This module bounds what can come out of it.

`Metadata.Builds` are the terms that resolution can build from given ones. They have finitely many
leaves, and every node has one of finitely many shapes: ranks are read from a byte, argument lists
fit into the address space, and definitions are in the table. So there are finitely many of each
depth (`Metadata.finite_builds`), and a key that is asked for is no deeper than the limit on generic
depth (`Meaning.members_stays`). Cutting an instantiation off resets the depth, but does not leave
the universe.
-/

namespace GlobalMetadata

/-! ### Terms that can be built -/

namespace TypeTerm

/-- An argument of a class is less deep. -/
theorem depth_lt_of_mem {definition : Nat} {classArgs methodArgs : List TypeTerm} {t : TypeTerm}
    (h_t : t ∈ classArgs ++ methodArgs) :
    t.depth < (TypeTerm.class definition classArgs methodArgs).depth := by
  -- there is an argument, so that the key is one of an instantiation
  have h_inst : (KeyTerm.mk definition classArgs methodArgs).isInstantiation = true := by
    cases classArgs with
    | cons a as => rfl
    | nil =>
      cases methodArgs with
      | cons a as => rfl
      | nil => cases h_t
  have h_depth := KeyTerm.depth_eq h_inst
  rw [KeyTerm.depth, KeyTerm.type] at h_depth
  rw [h_depth]
  exact Nat.lt_succ_of_le (depths_le_iff.mp (Nat.le_refl _) t h_t)

end TypeTerm

namespace Metadata

variable (m : Metadata) (base : Set TypeTerm)

/-- The terms that resolution can build from given ones. -/
inductive Builds : TypeTerm → Prop
  /-- A given term. -/
  | base {t : TypeTerm} (given : t ∈ base) : Builds t
  /-- No value. -/
  | void : Builds .void
  /-- A type that its kind describes. -/
  | primitive (kind : TypeKind) : Builds (.primitive kind)
  /-- An open generic parameter, as the table has it. -/
  | parameter {index : Nat} {row : GenericParameter} {name : String} (ofMethod : Bool)
      (at_row : m.genericParameter index = .ok row) (named : m.string row.nameIndex = .ok name) :
      Builds (.parameter row.number ofMethod name)
  /-- A class of a type definition of the table. -/
  | class {definition : Nat} {classArgs methodArgs : List TypeTerm}
      (known : definition < m.typeDefinitions.size) (fewClass : classArgs.length < addressLimit)
      (fewMethod : methodArgs.length < addressLimit) (classBuilt : ∀ t ∈ classArgs, Builds t)
      (methodBuilt : ∀ t ∈ methodArgs, Builds t) : Builds (.class definition classArgs methodArgs)
  /-- An array. -/
  | array {element : TypeTerm} {rank : Nat} (small : rank < 256) (built : Builds element) :
      Builds (.array element rank)
  /-- An unmanaged pointer. -/
  | pointer {element : TypeTerm} (built : Builds element) : Builds (.pointer element)
  /-- A reference to a variable. -/
  | byref {element : TypeTerm} (built : Builds element) : Builds (.byref element)

/-- The keys whose arguments can be built. -/
structure BuildsKey (k : KeyTerm) : Prop where
  /-- The definition is in the table. -/
  known : k.definition < m.typeDefinitions.size
  /-- The arguments of the type fit into the address space. -/
  fewClass : k.classArgs.length < addressLimit
  /-- The arguments of a method fit into the address space. -/
  fewMethod : k.methodArgs.length < addressLimit
  /-- The arguments of the type can be built. -/
  classArgs : ∀ t ∈ k.classArgs, m.Builds base t
  /-- The arguments of a method can be built. -/
  methodArgs : ∀ t ∈ k.methodArgs, m.Builds base t

variable {m base}

theorem BuildsKey.type {k : KeyTerm} (h : m.BuildsKey base k) : m.Builds base k.type :=
  .class h.known h.fewClass h.fewMethod h.classArgs h.methodArgs

theorem buildsKey_ofDefinition {definition : Nat} (h : definition < m.typeDefinitions.size) :
    m.BuildsKey base (.ofDefinition definition) :=
  ⟨h, Nat.two_pow_pos 64, Nat.two_pow_pos 64, fun _ h_t => absurd h_t List.not_mem_nil,
    fun _ h_t => absurd h_t List.not_mem_nil⟩

/-! ### There are finitely many -/

instance : Finite TypeKind :=
  Finite.of_injective (fun kind => (⟨kind.tag, by cases kind <;> decide⟩ : Fin 256))
    fun _ _ h => TypeKind.tag_inj.mp (Fin.mk.inj h)

theorem finite_lists {α : Type} {s : Set α} (h : s.Finite) (n : Nat) :
    {l : List α | l.length < n ∧ ∀ a ∈ l, a ∈ s}.Finite := by
  -- lists over the set are lists over the type of its elements
  have := h.to_subtype
  refine ((List.finite_length_lt s n).image (List.map Subtype.val)).subset ?_
  rintro l ⟨h_length, h_mem⟩
  lift l to List s using h_mem
  exact ⟨l, by simpa using h_length, rfl⟩

/-- The leaves. -/
theorem finite_parameters (m : Metadata) :
    {t : TypeTerm | ∃ index row ofMethod name, m.genericParameter index = .ok row ∧
      m.string row.nameIndex = .ok name ∧ t = .parameter row.number ofMethod name}.Finite := by
  -- each of them is spelled by an entry of the table
  let spell (p : Nat × Bool) : TypeTerm :=
    match m.genericParameter p.1 with
    | .error _ => .void
    | .ok row =>
      match m.string row.nameIndex with
      | .error _ => .void
      | .ok name => .parameter row.number p.2 name
  have h_domain : ({i | i < m.genericParameters.size} ×ˢ (Set.univ : Set Bool)).Finite :=
    (Set.finite_lt_nat _).prod Set.finite_univ
  refine (h_domain.image spell).subset ?_
  rintro t ⟨index, row, ofMethod, name, h_row, h_name, rfl⟩
  refine ⟨(index, ofMethod), ⟨?_, trivial⟩, ?_⟩
  · unfold genericParameter at h_row
    split at h_row
    next h_at => exact (Array.getElem?_eq_some_iff.mp h_at).1
    next => cases h_row
  · simp only [spell, h_row, h_name]

/-- **Finitely many terms of each depth**, by induction on the depth: whatever is less deep comes
from a finite set, and one more node has finitely many shapes. -/
theorem finite_builds (h_base : base.Finite) (n : Nat) :
    {t | m.Builds base t ∧ t.depth < n}.Finite := by
  induction n with
  | zero => exact Set.finite_empty.subset fun t h => absurd h.2 (Nat.not_lt_zero _)
  | succ n ih =>
    -- what the parts of a term come from
    let smaller := {t | m.Builds base t ∧ t.depth < n}
    let args := {l : List TypeTerm | l.length < addressLimit ∧ ∀ t ∈ l, t ∈ smaller}
    -- arguments are less deep than the class
    have h_args : args.Finite := finite_lists ih addressLimit
    have h_classes : ((fun p : Nat × List TypeTerm × List TypeTerm =>
        TypeTerm.class p.1 p.2.1 p.2.2) ''
          ({d | d < m.typeDefinitions.size} ×ˢ args ×ˢ args)).Finite :=
      ((Set.finite_lt_nat _).prod (h_args.prod h_args)).image _
    have h_arrays : ((fun p : TypeTerm × Nat => TypeTerm.array p.1 p.2) ''
        (smaller ×ˢ {rank | rank < 256})).Finite := (ih.prod (Set.finite_lt_nat 256)).image _
    have h_leaves := (Set.finite_range TypeTerm.primitive).union (finite_parameters m)
    -- the shapes of a node, each over what its parts come from
    have h_all := ((((h_base.union (Set.finite_singleton .void)).union h_leaves).union
      h_classes).union h_arrays).union ((ih.image TypeTerm.pointer).union (ih.image TypeTerm.byref))
    refine h_all.subset ?_
    rintro t ⟨h_t, h_depth⟩
    simp only [Set.mem_union]
    cases h_t with
    | base given => exact .inl (.inl (.inl (.inl (.inl given))))
    | void => exact .inl (.inl (.inl (.inl (.inr rfl))))
    | primitive kind => exact .inl (.inl (.inl (.inr (.inl ⟨kind, rfl⟩))))
    | parameter ofMethod at_row named =>
      exact .inl (.inl (.inl (.inr (.inr ⟨_, _, ofMethod, _, at_row, named, rfl⟩))))
    | «class» known fewClass fewMethod classBuilt methodBuilt =>
      have h_arg {t : TypeTerm} (h_t : t ∈ _ ++ _) (h_built : m.Builds base t) : t ∈ smaller :=
        ⟨h_built, Nat.lt_of_lt_of_le (TypeTerm.depth_lt_of_mem h_t) (Nat.le_of_lt_succ h_depth)⟩
      refine .inl (.inl (.inr ⟨(_, _, _), ⟨known, ⟨fewClass, ?_⟩, fewMethod, ?_⟩, rfl⟩))
      · exact fun t h_t => h_arg (List.mem_append_left _ h_t) (classBuilt t h_t)
      · exact fun t h_t => h_arg (List.mem_append_right _ h_t) (methodBuilt t h_t)
    | array small built =>
      exact .inl (.inr ⟨(_, _), ⟨⟨built, Nat.lt_of_succ_lt_succ h_depth⟩, small⟩, rfl⟩)
    | pointer built => exact .inr (.inl ⟨_, ⟨built, Nat.lt_of_succ_lt_succ h_depth⟩, rfl⟩)
    | byref built => exact .inr (.inr ⟨_, ⟨built, Nat.lt_of_succ_lt_succ h_depth⟩, rfl⟩)

/-- **Finitely many keys of each depth.** -/
theorem finite_buildsKey (h_base : base.Finite) (n : Nat) :
    {k | m.BuildsKey base k ∧ k.depth ≤ n}.Finite := by
  -- a key is known by its type, which is one deeper at most
  refine Set.Finite.of_finite_image (f := KeyTerm.type) ?_ fun _ _ _ _ => KeyTerm.type_inj.mp
  refine (finite_builds (m := m) h_base (n + 1)).subset ?_
  rintro t ⟨k, ⟨h_k, h_depth⟩, rfl⟩
  exact ⟨h_k.type, Nat.lt_succ_of_le h_depth⟩

end Metadata

/-! ### What is read is bounded -/

/-- An argument list is read from an array that fits into the address space. -/
theorem GenericInst.length_arguments {inst : GenericInst} {image : Image} {addresses : List Nat}
    (h : inst.arguments image = .ok addresses) : addresses.length < addressLimit := by
  unfold arguments Image.pointers at h
  have h_width : 1 ≤ image.pointerWidth.bytes := by cases image.pointerWidth <;> decide
  split at h
  · cases h
    exact Nat.two_pow_pos 64
  · dsimp only at h
    split at h
    · cases h
    next h_limit =>
      obtain ⟨offset, -, h⟩ := except_bind_eq_ok_iff.mp h
      obtain ⟨bytes, -, h⟩ := except_bind_eq_ok_iff.mp h
      cases h
      rw [List.length_map, Bytes.length_chunks]
      -- every pointer takes a byte at least
      exact Nat.lt_of_le_of_lt (Nat.le_mul_of_pos_right _ h_width) (Nat.not_le.mp h_limit)

/-- A rank is read from a byte. -/
theorem Registration.rank_lt {tables : Registration} {address : Nat} {shape : ArrayShape}
    (h : tables.arrayTypeAt address = .ok shape) : max shape.rank 1 < 256 := by
  obtain ⟨record, -, h⟩ := except_bind_eq_ok_iff.mp h
  obtain ⟨element, -, h⟩ := except_bind_eq_ok_iff.mp h
  obtain ⟨rank, h_rank, h⟩ := except_bind_eq_ok_iff.mp h
  have h_small : rank < 256 := by
    unfold Record.uint8 at h_rank
    cases h_value : record.get .rank with
    | error error =>
      rw [h_value] at h_rank
      cases h_rank
    | ok value =>
      rw [h_value] at h_rank
      cases h_rank
      exact Nat.mod_lt value (by decide)
  obtain ⟨_, -, h⟩ := except_bind_eq_ok_iff.mp h
  obtain ⟨_, -, h⟩ := except_bind_eq_ok_iff.mp h
  obtain ⟨_, -, h⟩ := except_bind_eq_ok_iff.mp h
  obtain ⟨_, -, h⟩ := except_bind_eq_ok_iff.mp h
  cases h
  -- at least one and at most what a byte holds
  exact Nat.max_lt.mpr ⟨h_small, by decide⟩

/-! ### What is asked for -/

namespace Meaning

/-- Everything that is asked for can be built and is not too deep, and the value is as it should
be. -/
structure Stays {α : Type} (m : Metadata) (base : Set TypeTerm) (maxDepth : Nat) (y : Meaning α)
    (Q : α → Prop) : Prop where
  /-- The keys that are asked for. -/
  demands : ∀ k ∈ y.demands, m.BuildsKey base k ∧ k.depth ≤ maxDepth
  value : ∀ a, y.value = some a → Q a

section Rules

variable {α β : Type} {m : Metadata} {base : Set TypeTerm} {maxDepth : Nat}

theorem stays_pure {Q : α → Prop} {a : α} (h : Q a) :
    (pure a : Meaning α).Stays m base maxDepth Q :=
  ⟨fun _ h_k => absurd h_k List.not_mem_nil, fun _ h_a => Option.some.inj h_a ▸ h⟩

theorem stays_nothing {Q : α → Prop} : (nothing : Meaning α).Stays m base maxDepth Q :=
  ⟨fun _ h_k => absurd h_k List.not_mem_nil, fun _ h_a => by cases h_a⟩

theorem stays_read (e : Except Error α) : (read e).Stays m base maxDepth fun a => e = .ok a :=
  ⟨fun _ h_k => absurd h_k List.not_mem_nil, fun _ h_a => read_value_eq_some_iff.mp h_a⟩

theorem stays_cut : cut.Stays m base maxDepth fun _ => True :=
  ⟨fun _ h_k => absurd h_k List.not_mem_nil, fun _ _ => trivial⟩

theorem stays_demand {k : KeyTerm} (h : m.BuildsKey base k) (h_depth : k.depth ≤ maxDepth) :
    (demand k).Stays m base maxDepth fun k' => k' = k :=
  ⟨fun _ h_k => List.mem_singleton.mp h_k ▸ ⟨h, h_depth⟩, fun _ h_k => (Option.some.inj h_k).symm⟩

theorem Stays.bind {y : Meaning α} {f : α → Meaning β} {Q : α → Prop} {R : β → Prop}
    (h : y.Stays m base maxDepth Q) (h_f : ∀ a, Q a → (f a).Stays m base maxDepth R) :
    (y >>= f).Stays m base maxDepth R := by
  cases h_y : y.value with
  | none =>
    rw [bind_of_none h_y]
    exact ⟨h.demands, fun _ h_b => by cases h_b⟩
  | some a =>
    have h_a := h_f a (h.value a h_y)
    rw [bind_of_value h_y]
    refine ⟨fun k h_k => ?_, h_a.value⟩
    -- asked for by the first one or by the second one
    rcases List.mem_append.mp h_k with h_k | h_k
    · exact h.demands k h_k
    · exact h_a.demands k h_k

theorem Stays.weaken {y : Meaning α} {Q R : α → Prop} (h : y.Stays m base maxDepth Q)
    (h_QR : ∀ a, Q a → R a) : y.Stays m base maxDepth R :=
  ⟨h.demands, fun a h_a => h_QR a (h.value a h_a)⟩

theorem Stays.map {y : Meaning α} {Q : α → Prop} {R : β → Prop} (h : y.Stays m base maxDepth Q)
    {f : α → β} (h_f : ∀ a, Q a → R (f a)) : (f <$> y).Stays m base maxDepth R := by
  rw [map_eq_pure_bind]
  exact h.bind fun a h_a => stays_pure (h_f a h_a)

theorem stays_mapM {f : α → Meaning β} {Q : β → Prop} (as : List α)
    (h_f : ∀ a ∈ as, (f a).Stays m base maxDepth Q) :
    (as.mapM f).Stays m base maxDepth fun bs => bs.length = as.length ∧ ∀ b ∈ bs, Q b := by
  induction as with
  | nil => exact stays_pure ⟨rfl, fun _ h_b => absurd h_b List.not_mem_nil⟩
  | cons a as ih =>
    rw [List.mapM_cons]
    refine (h_f a List.mem_cons_self).bind fun b h_b => ?_
    have h_rest := ih fun a' h_a' => h_f a' (List.mem_cons_of_mem a h_a')
    refine h_rest.bind fun bs ⟨h_length, h_bs⟩ => ?_
    refine stays_pure ⟨congrArg Nat.succ h_length, fun b' h_b' => ?_⟩
    rcases List.mem_cons.mp h_b' with rfl | h_b'
    · exact h_b
    · exact h_bs b' h_b'

end Rules

section Descriptors

variable (m : Metadata) (base : Set TypeTerm) (maxDepth : Nat)

theorem definition_stays (index : Nat) :
    (definition m index).Stays m base maxDepth fun _ => index < m.typeDefinitions.size :=
  (stays_read _).weaken fun _ h => (Metadata.lineage_eq_ok_iff.mp h).lt_size

theorem definitionType_stays (index : Nat) :
    (definitionType m index).Stays m base maxDepth (m.Builds base) :=
  (definition_stays m base maxDepth index).bind fun _ h =>
    stays_pure (Metadata.buildsKey_ofDefinition h).type

/-- Both kinds of arguments in scope can be built. -/
def BuiltScope (scope : TermScope) : Prop :=
  (∀ t ∈ scope.classArgs, m.Builds base t) ∧ ∀ t ∈ scope.methodArgs, m.Builds base t

variable {m base} {scope : TermScope} (h_scope : BuiltScope m base scope)

include h_scope in
theorem parameter_stays (index : Nat) (ofMethod : Bool) :
    (parameter m scope index ofMethod).Stays m base maxDepth (m.Builds base) := by
  have h_args : ∀ t ∈ scope.args ofMethod, m.Builds base t := by
    cases ofMethod with
    | false => exact h_scope.1
    | true => exact h_scope.2
  refine (stays_read _).bind fun row h_row => ?_
  cases h_arg : (scope.args ofMethod)[row.number]? with
  | none =>
    refine (stays_read _).bind fun name h_name => ?_
    exact stays_pure (.parameter ofMethod h_row h_name)
  | some t => exact stays_pure (h_args t (List.mem_of_getElem? h_arg))

variable {resolve : Nat → Meaning TypeTerm}
  (h_resolve : ∀ address, (resolve address).Stays m base maxDepth (m.Builds base))

include h_resolve

theorem arguments_stays (address : Nat) :
    (arguments m resolve address).Stays m base maxDepth fun ts =>
      ts.length < addressLimit ∧ ∀ t ∈ ts, m.Builds base t := by
  unfold arguments
  split
  · exact stays_pure ⟨Nat.two_pow_pos 64, fun _ h_t => absurd h_t List.not_mem_nil⟩
  · refine (stays_read _).bind fun inst _ => (stays_read _).bind fun addresses h_addresses => ?_
    refine (stays_mapM addresses fun address _ => h_resolve address).weaken
      fun ts ⟨h_length, h_ts⟩ => ⟨?_, h_ts⟩
    exact h_length ▸ GenericInst.length_arguments h_addresses

omit h_resolve in
/-- **Instantiations.** Only what is not too deep is asked for; what is too deep is cut off. -/
theorem instantiate_stays {k : KeyTerm}
    (h_class : k.classArgs.length < addressLimit ∧ ∀ t ∈ k.classArgs, m.Builds base t)
    (h_method : k.methodArgs.length < addressLimit ∧ ∀ t ∈ k.methodArgs, m.Builds base t) :
    (instantiate m maxDepth k).Stays m base maxDepth (m.Builds base) := by
  refine (definition_stays m base maxDepth k.definition).bind fun lineage h_known => ?_
  -- whatever the arguments are, the definition itself can be built
  have h_open : m.Builds base (KeyTerm.ofDefinition k.definition).type :=
    (Metadata.buildsKey_ofDefinition h_known).type
  have h_k : m.BuildsKey base k := ⟨h_known, h_class.1, h_method.1, h_class.2, h_method.2⟩
  split
  · exact stays_pure h_open
  · split
    · exact stays_cut.bind fun _ _ => stays_pure h_open
    next h_depth =>
      have h_classOf : (classOf m k).Stays m base maxDepth fun k' => k' = k :=
        (definition_stays m base maxDepth k.definition).bind fun _ _ =>
          stays_demand h_k (Nat.not_lt.mp h_depth)
      exact h_classOf.bind fun k' h_same => stays_pure (h_same ▸ h_k.type)

theorem instantiation_stays (address : Nat) :
    (instantiation m maxDepth resolve address).Stays m base maxDepth (m.Builds base) := by
  refine (stays_read _).bind fun generic _ => (stays_read _).bind fun row _ => ?_
  refine (arguments_stays maxDepth h_resolve generic.classInst).bind fun classArgs h_class => ?_
  refine (arguments_stays maxDepth h_resolve generic.methodInst).bind fun methodArgs h_method => ?_
  exact instantiate_stays maxDepth h_class h_method

include h_scope in
theorem payload_stays (d : Descriptor) :
    (payload m maxDepth scope resolve d).Stays m base maxDepth (m.Builds base) := by
  unfold payload
  split
  · exact stays_pure .void
  cases d.payload with
  | none => exact stays_pure (.primitive d.kind)
  | definition row => exact definitionType_stays m base maxDepth row
  | element address =>
    refine (h_resolve address).bind fun t h_t => ?_
    cases d.kind with
    | ptr => exact stays_pure (.pointer h_t)
    | byRef => exact stays_pure (.byref h_t)
    | _ => exact stays_pure (.array (by decide) h_t)
  | array address =>
    refine (stays_read _).bind fun shape h_shape => (h_resolve shape.element).bind fun t h_t => ?_
    exact stays_pure (.array (Registration.rank_lt h_shape) h_t)
  | parameter index => exact parameter_stays maxDepth h_scope index _
  | instantiation address => exact instantiation_stays maxDepth h_resolve address

omit h_resolve

include h_scope

theorem descriptorWithin_stays (levels : Nat) (d : Descriptor) :
    (descriptorWithin m maxDepth scope levels d).Stays m base maxDepth (m.Builds base) := by
  induction levels generalizing d with
  | zero => exact stays_nothing
  | succ levels ih =>
    refine (payload_stays maxDepth h_scope (fun address => ?_) d).bind fun t h_t => ?_
    · exact (stays_read _).bind fun d' _ => ih d'
    · split
      · exact stays_pure (.byref h_t)
      · exact stays_pure h_t

theorem typeIndex_stays (index : Nat) :
    (typeIndex m maxDepth scope index).Stays m base maxDepth (m.Builds base) :=
  (stays_read _).bind fun d _ => descriptorWithin_stays maxDepth h_scope _ d

end Descriptors

section Members

variable {m : Metadata} {base : Set TypeTerm} (maxDepth : Nat) {scope : TermScope}
  (h_scope : BuiltScope m base scope) (owner : KeyTerm)

include h_scope

theorem field_stays (row : FieldDefinition) :
    (field m maxDepth scope owner row).Stays m base maxDepth fun _ => True := by
  refine (stays_read _).bind fun name _ => ?_
  cases row.typeIndex with
  | none => exact stays_nothing
  | some index =>
    refine (stays_read _).bind fun d _ => ?_
    exact (descriptorWithin_stays maxDepth h_scope _ d).bind fun _ _ => stays_pure trivial

theorem fields_stays (row : TypeDefinition) :
    (fields m maxDepth scope owner row).Stays m base maxDepth fun _ => True :=
  (stays_read _).bind fun rows _ =>
    (stays_mapM rows fun row _ => field_stays maxDepth h_scope owner row).bind fun _ _ =>
      stays_pure trivial

theorem methodParameter_stays (row : ParameterDefinition) :
    (methodParameter m maxDepth scope row).Stays m base maxDepth fun _ => True := by
  refine (stays_read _).bind fun name _ => ?_
  cases row.typeIndex with
  | none => exact stays_nothing
  | some index => exact (typeIndex_stays maxDepth h_scope index).bind fun _ _ => stays_pure trivial

theorem returnType_stays (index : Option Nat) :
    (returnType m maxDepth scope index).Stays m base maxDepth fun _ => True := by
  cases index with
  | none => exact stays_pure trivial
  | some index => exact (typeIndex_stays maxDepth h_scope index).weaken fun _ _ => trivial

theorem method_stays (row : MethodDefinition) :
    (method m maxDepth scope owner row).Stays m base maxDepth fun _ => True := by
  refine (stays_read _).bind fun name _ => ?_
  refine (returnType_stays maxDepth h_scope row.returnType).bind fun _ _ => ?_
  refine Stays.bind (Q := fun _ => True) ?_ fun _ _ => stays_pure trivial
  refine (stays_read _).bind fun rows _ => ?_
  exact (stays_mapM rows fun row _ => methodParameter_stays maxDepth h_scope row).weaken
    fun _ _ => trivial

theorem methods_stays (row : TypeDefinition) :
    (methods m maxDepth scope owner row).Stays m base maxDepth fun _ => True :=
  (stays_read _).bind fun rows _ =>
    (stays_mapM rows fun row _ => method_stays maxDepth h_scope owner row).bind fun _ _ =>
      stays_pure trivial

theorem underlying_stays (row : TypeDefinition) :
    (underlying m maxDepth scope row).Stays m base maxDepth fun _ => True := by
  unfold underlying
  cases row.elementTypeIndex with
  | none => exact stays_pure trivial
  | some index =>
    dsimp only
    split
    · exact (typeIndex_stays maxDepth h_scope index).map fun _ _ => trivial
    · exact stays_pure trivial

omit h_scope

theorem nestedClass_stays (entry : Int) :
    (nestedClass m owner entry).Stays m base maxDepth fun _ => True := by
  unfold nestedClass
  cases toIndex? entry with
  | none => exact stays_nothing
  | some position =>
    refine (definition_stays m base maxDepth position).bind fun lineage _ => ?_
    split
    · exact stays_pure trivial
    · exact stays_nothing

theorem nested_stays (row : TypeDefinition) :
    (nested m owner row).Stays m base maxDepth fun _ => True := by
  unfold nested
  split
  · exact stays_pure trivial
  · refine (stays_read _).bind fun rows _ => ?_
    exact (stays_mapM rows fun entry _ => nestedClass_stays maxDepth owner entry).weaken
      fun _ _ => trivial

/-- **Members ask for nothing else** than keys that can be built from their arguments and are not
too deep. -/
theorem members_stays (h_owner : BuiltScope m base (.ofKey owner)) :
    (members m maxDepth owner).Stays m base maxDepth fun _ => True := by
  refine (stays_read _).bind fun row _ => ?_
  refine (underlying_stays maxDepth h_owner row).bind fun _ _ => ?_
  refine (fields_stays maxDepth h_owner owner row).bind fun _ _ => ?_
  refine (methods_stays maxDepth h_owner owner row).bind fun _ _ => ?_
  exact (nested_stays maxDepth owner row).bind fun _ _ => stays_pure trivial

end Members

end Meaning

end GlobalMetadata
