import GlobalMetadata.Proofs.Origin

/-!
# References of classes to themselves

The type of a linked list has a field of its own type: the record of an instantiation names the
definition with the own parameters of the definition as arguments. Inside the definition this is the
definition itself, and inside an instantiation it is the same instantiation again.

The two come about in different ways. Inside the definition the parameters are open, so that they
come to the very types that the class of the definition was created with (`ResolvedClass.Owns`).
Inside an instantiation they come to its arguments, so that the key is the one that the class stands
under; and since it was given to the class, it is not too deep and its arguments are not those of
the definition (`Arena.Admitted`). In both cases the arguments are the generic arguments of the
class, and they are found without any change of the arena (`Resolving.Finds`).

So a class that refers to itself is created once: `CellState.self_references` says that such a
record comes to the class itself in every state from its creation on, with no class created and
nothing cut off.
-/

namespace GlobalMetadata

/-! ### Records -/

namespace Metadata

variable (m : Metadata)

/-- The parameters of a definition, which are numbered by their positions. -/
structure DeclaresParameters (definition : Nat) (parameters : List GenericParameter) : Prop where
  declared : ∃ row, m.typeDefinition definition = .ok row ∧ m.parametersOf row = .ok parameters
  numbered : ∀ i (p : GenericParameter), parameters[i]? = some p → p.number = i

/-- The list of arguments at an address, 0 for no list. -/
def ListsAddresses (list : Nat) (addresses : List Nat) : Prop :=
  list = 0 ∧ addresses = [] ∨ list ≠ 0 ∧ ∃ inst, m.registration.genericInstAt list = .ok inst ∧
    inst.arguments m.registration.image = .ok addresses

/-- The descriptor at an address names a parameter of a type, and is no reference to it. -/
def NamesParameter (address : Nat) (p : GenericParameter) : Prop :=
  ∃ d index, m.registration.typeAt address = .ok d ∧ d.kind = .var ∧ d.byref = false ∧
    d.payload = .parameter index ∧ m.genericParameter index = .ok p

/-- The record at an address names a definition with exactly the given parameters of it, in order,
and with no arguments of a method. -/
structure NamesOpen (definition : Nat) (parameters : List GenericParameter) (address : Nat) :
    Prop where
  record : ∃ generic addresses, m.registration.genericClassAt address = .ok generic ∧
    m.instantiatedDefinition generic = .ok definition ∧
    m.ListsAddresses generic.classInst addresses ∧
    List.Forall₂ m.NamesParameter addresses parameters ∧ m.ListsAddresses generic.methodInst []

/-- A definition that has a chain has parameters with names, all of them open. -/
theorem Traces.openArgs {m : Metadata} {definition : Nat} {lineage : Lineage}
    (h : m.Traces definition lineage) {parameters : List GenericParameter}
    (h_parameters : m.DeclaresParameters definition parameters) :
    List.Forall₂ (fun p t => ∃ name, m.string p.nameIndex = .ok name ∧
      t = .parameter p.number false name) parameters lineage.frame.openArgs := by
  obtain ⟨row, h_row, h_declared⟩ := h_parameters.declared
  have h_made : ∃ outer, m.lineageOf definition row outer = .ok lineage := by
    cases h with
    | top h_row' _ h_made =>
      cases h_row.symm.trans h_row'
      exact ⟨_, h_made⟩
    | nested h_row' _ _ h_made =>
      cases h_row.symm.trans h_row'
      exact ⟨_, h_made⟩
  obtain ⟨outer, h_made⟩ := h_made
  obtain ⟨name, -, h_made⟩ := except_bind_eq_ok_iff.mp h_made
  obtain ⟨namespaceName, -, h_made⟩ := except_bind_eq_ok_iff.mp h_made
  obtain ⟨rows, h_rows, h_made⟩ := except_bind_eq_ok_iff.mp h_made
  obtain ⟨named, h_named, h_made⟩ := except_bind_eq_ok_iff.mp h_made
  cases h_made
  cases h_rows.symm.trans h_declared
  rw [Lineage.frame_make, Frame.openArgs, List.forall₂_map_right_iff]
  refine (forall₂_of_mapM_eq_ok h_named).imp fun p pair h_pair => ?_
  obtain ⟨name, h_name, h_pair⟩ := except_bind_eq_ok_iff.mp h_pair
  cases h_pair
  exact ⟨name, h_name, rfl⟩

end Metadata

/-- A class fits the parameters of its definition: it is that of the definition, or it has one
argument for each of them and none of a method. -/
def ResolvedClass.Fits (c : ResolvedClass) (parameters : List GenericParameter) : Prop :=
  c.isInstantiation = false ∨
    c.key.classArgs.length = parameters.length ∧ c.key.methodArgs = []

/-! ### Finding -/

namespace Resolving

variable {m : Metadata} {maxDepth : Nat} {arena : Arena} {α β : Type}

/-- A step finds a value that is there, and changes nothing. -/
def Finds (arena : Arena) (x : Resolving α) (a : α) : Prop :=
  result x arena = .ok a ∧ after x arena = arena

theorem Finds.pure (arena : Arena) (a : α) : Finds arena (Pure.pure a) a :=
  ⟨rfl, rfl⟩

theorem Finds.bind {x : Resolving α} {f : α → Resolving β} {a : α} {b : β} (h : Finds arena x a)
    (h_f : Finds arena (f a) b) : Finds arena (x >>= f) b := by
  obtain ⟨h_result, h_after⟩ := bind_of_ok (f := f) h.1
  rw [h.2] at h_result h_after
  exact ⟨h_result.trans h_f.1, h_after.trans h_f.2⟩

theorem Finds.bind_read {e : Except Error α} {f : α → Resolving β} {a : α} {b : β} (h : e = .ok a)
    (h_f : Finds arena (f a) b) : Finds arena (liftM e >>= f) b :=
  bind ⟨h, rfl⟩ h_f

theorem Finds.mapM {f : α → Resolving β} {as : List α} {bs : List β}
    (h : List.Forall₂ (fun a b => Finds arena (f a) b) as bs) : Finds arena (as.mapM f) bs := by
  induction h with
  | nil => exact .pure arena []
  | cons h_first _ ih =>
    rw [List.mapM_cons]
    exact h_first.bind (ih.bind (.pure arena _))

/-- A type that is there is found. -/
theorem finds_intern {type : ResolvedType} {id : TypeId} (h : arena.type? id = some type) :
    Finds arena (intern type) id := by
  have h_same := Arena.intern_of_type? h
  have h_result : result (intern type) arena = .ok (arena.intern type).1 := rfl
  rw [h_same] at h_result
  exact ⟨h_result, congrArg Prod.snd h_same⟩

section Parameters

variable {scope : GenericScope} {index : Nat} {p : GenericParameter} {id : TypeId}

/-- The argument for a parameter is found. -/
theorem finds_parameter_of_arg (h_row : m.genericParameter index = .ok p)
    (h_arg : scope.classArgs[p.number]? = some id) :
    Finds arena (parameter m scope index false) id := by
  refine .bind_read h_row ?_
  rw [show (scope.args false)[p.number]? = some id from h_arg]
  exact .pure arena id

/-- A parameter that is open is found where its type is there. -/
theorem finds_parameter_of_open (h_row : m.genericParameter index = .ok p)
    (h_open : scope.classArgs[p.number]? = none) {name : String}
    (h_name : m.string p.nameIndex = .ok name)
    (h_type : arena.type? id = some (.parameter p.number false name)) :
    Finds arena (parameter m scope index false) id := by
  refine .bind_read h_row ?_
  rw [show (scope.args false)[p.number]? = none from h_open]
  exact .bind_read h_name (finds_intern h_type)

/-- A descriptor that names a parameter comes to what the parameter comes to. -/
theorem finds_atAddress {address levels : Nat} (h_names : m.NamesParameter address p)
    (h : ∀ index, m.genericParameter index = .ok p →
      Finds arena (parameter m scope index false) id) :
    Finds arena (atAddress m (descriptorWithin m maxDepth scope (levels + 1)) address) id := by
  obtain ⟨d, index, h_d, h_kind, h_byref, h_payload, h_index⟩ := h_names
  refine .bind_read h_d (.bind (a := id) ?_ ?_)
  · unfold payload
    rw [h_kind, if_neg (by decide), h_payload]
    exact h index h_index
  · rw [h_byref]
    exact .pure arena id

end Parameters

/-- Arguments are found where each of them is. -/
theorem finds_arguments {resolve : Nat → Resolving TypeId} {list : Nat} {addresses : List Nat}
    (h_list : m.ListsAddresses list addresses) {ids : List TypeId}
    (h : List.Forall₂ (fun address id => Finds arena (resolve address) id) addresses ids) :
    Finds arena (arguments m resolve list) ids := by
  unfold arguments
  rcases h_list with ⟨h_none, rfl⟩ | ⟨h_some, inst, h_inst, h_addresses⟩
  · cases h
    rw [if_pos h_none]
    exact .pure arena []
  · rw [if_neg h_some]
    exact .bind_read h_inst (.bind_read h_addresses (.mapM h))

/-- The key that a record names is found where each of the parameters is. -/
theorem finds_recordKey {resolve : Nat → Resolving TypeId} {definition address : Nat}
    {parameters : List GenericParameter} (h_names : m.NamesOpen definition parameters address)
    {ids : List TypeId}
    (h : List.Forall₂ (fun p id => ∀ address, m.NamesParameter address p →
      Finds arena (resolve address) id) parameters ids) :
    Finds arena (recordKey m resolve address) ⟨definition, ids, []⟩ := by
  obtain ⟨generic, addresses, h_generic, h_definition, h_class, h_own, h_method⟩ := h_names.record
  have h_args : Finds arena (arguments m resolve generic.classInst) ids := by
    have h_each : ∀ address p id, m.NamesParameter address p →
        (∀ address, m.NamesParameter address p → Finds arena (resolve address) id) →
        Finds arena (resolve address) id :=
      fun address p id h_names h_found => h_found address h_names
    exact finds_arguments h_class (forall₂_comp h_each h_own h)
  have h_none : Finds arena (arguments m resolve generic.methodInst) [] :=
    finds_arguments h_method .nil
  exact .bind_read h_generic (.bind_read h_definition (h_args.bind (h_none.bind (.pure arena _))))

/-! ### The arguments of a class -/

section Own

variable {id : ClassId} {c : ResolvedClass} {parameters : List GenericParameter}

/-- An instantiation has the arguments of its key. -/
theorem genericArgs_eq (h : arena.Sound m) (h_c : arena.class? id = some c)
    (h_inst : c.isInstantiation = true) : c.genericArgs = c.key.classArgs := by
  obtain ⟨lineage, k, -, h_shows⟩ := h.classes id c h_c
  have h_args := h_shows.genericArgs
  rw [if_pos (h_shows.key.isInstantiation_eq.symm.trans h_inst)] at h_args
  exact h_args.inj h_shows.key.2.1

/-- **Own parameters.** In the context of a class, the parameters of its definition are found to be
the generic arguments of the class. -/
theorem finds_ownParameters (maxDepth : Nat) (h : arena.Sound m) (h_c : arena.class? id = some c)
    (h_parameters : m.DeclaresParameters c.definition parameters) (h_fits : c.Fits parameters)
    (levels : Nat) : List.Forall₂ (fun p type => ∀ address, m.NamesParameter address p →
      Finds arena (atAddress m (descriptorWithin m maxDepth (.ofKey c.key) (levels + 1)) address)
        type) parameters c.genericArgs := by
  by_cases h_inst : c.isInstantiation = true
  · -- a parameter is numbered by its position, and so is its argument
    obtain h_plain | ⟨h_length, -⟩ := h_fits
    · rw [h_plain] at h_inst
      cases h_inst
    rw [genericArgs_eq h h_c h_inst]
    refine List.forall₂_iff_get.mpr ⟨h_length.symm, fun i h_i h_i' address h_names => ?_⟩
    refine finds_atAddress h_names fun index h_index => finds_parameter_of_arg h_index ?_
    have h_number := h_parameters.numbered i _ (List.getElem?_eq_getElem h_i)
    rw [List.get_eq_getElem, h_number]
    exact List.getElem?_eq_getElem h_i'
  · -- the class was created with the types of the open parameters
    obtain ⟨lineage, k, h_traces, h_shows⟩ := h.classes id c h_c
    have h_plain : c.key = .ofDefinition c.definition :=
      ClassKey.eq_ofDefinition (Bool.not_eq_true _ ▸ h_inst)
    have h_args := h_shows.genericArgs
    rw [if_neg (by rwa [← h_shows.key.isInstantiation_eq])] at h_args
    have h_definition : c.definition = k.definition := h_shows.key.1
    rw [h_definition] at h_parameters
    refine forall₂_comp ?_ (h_traces.openArgs h_parameters) (Arena.unfoldsAll_iff.mp h_args)
    rintro p _ type ⟨name, h_name, rfl⟩ h_type address h_names
    refine finds_atAddress h_names fun index h_index => ?_
    rw [h_plain]
    exact finds_parameter_of_open h_index rfl h_name h_type

/-! ### The class itself -/

/-- A step comes to the type of a class, with no class created and nothing cut off. -/
structure ComesTo (arena : Arena) (x : Resolving TypeId) (id : ClassId) : Prop where
  type : ∃ type, result x arena = .ok type ∧ (after x arena).type? type = some (.class id)
  /-- The classes are the same. -/
  classes : (after x arena).classes = arena.classes
  /-- The count is the same. -/
  truncated : (after x arena).truncated = arena.truncated

theorem Finds.comesTo_bind {x : Resolving α} {f : α → Resolving TypeId} {a : α}
    (h : Finds arena x a) (h_f : ComesTo arena (f a) id) : ComesTo arena (x >>= f) id := by
  obtain ⟨h_result, h_after⟩ := bind_of_ok (f := f) h.1
  rw [h.2] at h_result h_after
  obtain ⟨h_type, h_classes, h_truncated⟩ := h_f
  rw [← h_result, ← h_after] at h_type
  rw [← h_after] at h_classes h_truncated
  exact ⟨h_type, h_classes, h_truncated⟩

/-- All that is left to do is to intern the type of the class. -/
theorem comesTo_of_intern {x : Resolving TypeId}
    (h_result : result x arena = .ok (arena.intern (.class id)).1)
    (h_after : after x arena = (arena.intern (.class id)).2) : ComesTo arena x id where
  type := ⟨_, h_result, h_after ▸ arena.type?_intern_self _⟩
  classes := by
    rw [h_after]
    rfl
  truncated := by
    rw [h_after]
    rfl

/-- **The definition.** The generic arguments of the class of a definition are its own parameters,
which stand for the definition. -/
theorem comesTo_instantiate_open (maxDepth : Nat) (h_c : arena.class? id = some c)
    (h_plain : c.key = .ofDefinition c.definition) :
    ComesTo arena (instantiate m maxDepth ⟨c.definition, c.genericArgs, []⟩) id := by
  have h_found : arena.find? (.ofDefinition c.definition) = some id :=
    h_plain ▸ Arena.find?_key h_c
  have h_owns : c.Owns ⟨c.definition, c.genericArgs, []⟩ := ⟨rfl, rfl⟩
  obtain ⟨h_result, h_after⟩ := settle_of_owns (m := m) maxDepth h_c h_owns
  rw [instantiate_eq]
  exact Finds.comesTo_bind (definitionWithin_found _ h_found) (comesTo_of_intern h_result h_after)

/-- **An instantiation.** The key that an instantiation stands under is not too deep and does not
stand for the definition, and its class is there. -/
theorem comesTo_instantiate_key (h : arena.Sound m) (h_c : arena.class? id = some c)
    (h_inst : c.isInstantiation = true) (h_admitted : arena.Admitted maxDepth c) :
    ComesTo arena (instantiate m maxDepth c.key) id := by
  cases h_admitted with
  | definition h_plain =>
    rw [ResolvedClass.isInstantiation, h_plain] at h_inst
    cases h_inst
  | instantiation h_depth h_found h_base h_foreign =>
    obtain ⟨lineage, k, -, h_shows⟩ := h.classes id c h_c
    -- the depth that is written on the class is that of the key
    have h_shallow : ¬ maxDepth < arena.keyDepth c.key := by
      rw [h.keyDepth_eq h_shows.key, ← h_shows.depth]
      exact Nat.not_lt.mpr h_depth
    obtain ⟨h_owner, h_same⟩ := classOf_found (m := m) (Arena.find?_key h_c)
    obtain ⟨h_result, h_after⟩ := settle_of_shallow h_base h_foreign h_shallow h_owner
    rw [h_same] at h_result h_after
    rw [instantiate_eq]
    exact Finds.comesTo_bind (definitionWithin_found _ h_found) (comesTo_of_intern h_result h_after)

/-- **Two ways.** With its generic arguments put in, the definition of a class comes to the
class. -/
theorem comesTo_instantiate (h : arena.Sound m) (h_c : arena.class? id = some c)
    (h_admitted : arena.Admitted maxDepth c) (h_fits : c.Fits parameters) :
    ComesTo arena (instantiate m maxDepth ⟨c.definition, c.genericArgs, []⟩) id := by
  by_cases h_inst : c.isInstantiation = true
  · obtain h_plain | ⟨-, h_method⟩ := h_fits
    · rw [h_plain] at h_inst
      cases h_inst
    have h_key : c.key = ⟨c.definition, c.genericArgs, []⟩ := by
      rw [genericArgs_eq h h_c h_inst, ← h_method]
      rfl
    rw [← h_key]
    exact comesTo_instantiate_key h h_c h_inst h_admitted
  · have h_plain : c.isInstantiation = false := Bool.eq_false_iff.mpr h_inst
    exact comesTo_instantiate_open maxDepth h_c (ClassKey.eq_ofDefinition h_plain)

variable {address levels : Nat}

/-- **The record** of a class with its own parameters comes to the class. -/
theorem comesTo_instantiation (h : arena.Sound m) (h_c : arena.class? id = some c)
    (h_admitted : arena.Admitted maxDepth c)
    (h_parameters : m.DeclaresParameters c.definition parameters) (h_fits : c.Fits parameters)
    (h_names : m.NamesOpen c.definition parameters address) (levels : Nat) :
    ComesTo arena (instantiation m maxDepth
      (atAddress m (descriptorWithin m maxDepth (.ofKey c.key) (levels + 1))) address) id := by
  rw [instantiation_eq]
  have h_args := finds_ownParameters maxDepth h h_c h_parameters h_fits levels
  exact (finds_recordKey h_names h_args).comesTo_bind
    (comesTo_instantiate h h_c h_admitted h_fits)

/-- A descriptor that names a record, and is no reference to it, comes to what the record does. -/
theorem comesTo_descriptorWithin {scope : GenericScope} {d : Descriptor} (h_kind : d.kind ≠ .void)
    (h_byref : d.byref = false) (h_payload : d.payload = .instantiation address)
    (h : ComesTo arena (instantiation m maxDepth
      (atAddress m (descriptorWithin m maxDepth scope levels)) address) id) :
    ComesTo arena (descriptorWithin m maxDepth scope (levels + 1) d) id := by
  have h_same : descriptorWithin m maxDepth scope (levels + 1) d = instantiation m maxDepth
      (atAddress m (descriptorWithin m maxDepth scope levels)) address := by
    rw [descriptorWithin, payload, if_neg h_kind, h_payload, h_byref]
    exact bind_pure _
  rw [h_same]
  exact h

end Own

end Resolving

/-! ### Classes that a run creates -/

namespace Arena

/-- A class ties the knot: each record that names its definition with exactly the own parameters of
the definition comes to the class itself, in the context of the class, and so does each descriptor
that names such a record. This is so in every sound arena that a given one grows to, and however
many descriptors around have been followed, as long as the arguments of the record can be. -/
def TiesKnot (m : Metadata) (maxDepth : Nat) (arena : Arena) (id : ClassId) (c : ResolvedClass) :
    Prop :=
  ∀ parameters address, m.DeclaresParameters c.definition parameters → c.Fits parameters →
    m.NamesOpen c.definition parameters address →
    ∀ arena', arena ≤ arena' → arena'.Sound m → ∀ levels,
      Resolving.ComesTo arena' (Resolving.instantiation m maxDepth (Resolving.atAddress m
        (Resolving.descriptorWithin m maxDepth (.ofKey c.key) (levels + 1))) address) id ∧
      ∀ d : Descriptor, d.kind ≠ .void → d.byref = false → d.payload = .instantiation address →
        Resolving.ComesTo arena'
          (Resolving.descriptorWithin m maxDepth (.ofKey c.key) (levels + 2) d) id

variable {m : Metadata} {maxDepth : Nat} {arena : Arena} {id : ClassId} {c : ResolvedClass}

theorem Admitted.tiesKnot (h : arena.Admitted maxDepth c) (h_c : arena.class? id = some c) :
    arena.TiesKnot m maxDepth id c := by
  intro parameters address h_parameters h_fits h_names arena' h_le h_sound levels
  -- whatever becomes of the class, its key is the same
  obtain ⟨c', h_c', h_grows⟩ := class?_mono h_le h_c
  have h_key : c'.key = c.key := h_grows.key_eq
  have h_definition : c'.definition = c.definition := congrArg ClassKey.definition h_key
  have h_fits' : c'.Fits parameters := by
    rw [ResolvedClass.Fits, ResolvedClass.isInstantiation, h_key]
    exact h_fits
  rw [← h_definition] at h_parameters h_names
  rw [← h_key]
  have h_record := Resolving.comesTo_instantiation h_sound h_c' (h.mono h_le h_grows) h_parameters
    h_fits' h_names levels
  exact ⟨h_record, fun d h_kind h_byref h_payload =>
    Resolving.comesTo_descriptorWithin h_kind h_byref h_payload h_record⟩

end Arena

namespace CellState

/-- **References to oneself.** Every class that a run creates ties the knot, from the visit that
creates it on, whatever callers and runs do later. -/
theorem self_references (m : Metadata) (config : Config) :
    (∀ resolver final, Resolver.Reachable m config resolver →
      Resolver.RunsFrom m config resolver final → ∀ id c, ¬ resolver.arena.HasClass id →
        final.arena.class? id = some c →
          final.arena.TiesKnot m config.maxGenericDepth id c) ∧
    ∀ state id c, RunCreates m config state id → state.resolver.arena.class? id = some c →
      state.resolver.arena.TiesKnot m config.maxGenericDepth id c := by
  have h_states : ∀ state id c, RunCreates m config state id →
      state.resolver.arena.class? id = some c →
        state.resolver.arena.TiesKnot m config.maxGenericDepth id c :=
    fun state id c h_creates h_c => (h_creates.admitted h_c).tiesKnot h_c
  refine ⟨fun resolver final h_reachable h_runs id c h_new h_c => ?_, h_states⟩
  obtain ⟨cells, h_creates⟩ := runCreates_of_runsFrom h_reachable h_runs h_new
    (Arena.hasClass_iff.mpr ⟨c, h_c⟩)
  exact h_states _ id c h_creates h_c

end CellState

/-- `boxed` with its instantiation listed, where the second definition has a field of its own type.
The record that the field names is at 0x101C. -/
def Metadata.boxedKnot : Metadata :=
  { boxed with
    typeDefinitions := #[
      nestedRow none,
      { nestedRow none with genericContainerIndex := some 0, fieldStart := 0, fieldCount := 1 }]
    fields := #[⟨0, some 3, none⟩]
    registration :=
      { boxed.registration with
        image :=
          { boxed.registration.image with
            data := ⟨boxed.registration.image.data.data ++ #[
              -- an instantiation of definition 1, with the arguments at 0x102C
              1, 0, 0, 0, 0x2C, 0x10, 0, 0, 0, 0, 0, 0, 0, 0, 0, 0,
              -- one argument, the address of which is at 0x1034
              1, 0, 0, 0, 0x34, 0x10, 0, 0,
              -- the address of the argument
              0x30, 0, 0, 0]⟩
            segments := [⟨0x1000, 0, 56⟩] }
        genericClasses := #[0x1000]
        types := #[⟨0, .genericInst, 0, false, false, .instantiation 0x1000⟩,
          ⟨0, .i4, 0, false, false, .none⟩,
          ⟨0, .var, 0, false, false, .parameter 0⟩,
          ⟨0, .genericInst, 0, false, false, .instantiation 0x101C⟩]
        typeAddresses := #[0x10, 0x20, 0x30, 0x40] } }

namespace Metadata

/-- The parameter of the second definition of `boxedKnot`. -/
theorem boxedKnot_declaresParameters :
    boxedKnot.DeclaresParameters 1 [⟨0, 0, 0, 0, 0, 0⟩] where
  declared := ⟨_, rfl, rfl⟩
  numbered i p h_p := by
    cases i with
    | zero =>
      cases h_p
      rfl
    | succ i => cases h_p

theorem boxedKnot_namesOpen : boxedKnot.NamesOpen 1 [⟨0, 0, 0, 0, 0, 0⟩] 0x101C where
  record := by
    refine ⟨⟨.row 1, 0x102C, 0, 0⟩, [0x30], by decide +kernel, rfl,
      .inr ⟨by decide, ⟨1, 0x1034⟩, ?_⟩, .cons ?_ .nil, .inl ⟨rfl, rfl⟩⟩
    · decide +kernel
    · exact ⟨⟨0, .var, 0, false, false, .parameter 0⟩, 0, by decide +kernel, rfl, rfl, rfl, rfl⟩

end Metadata

namespace CellState

/-- In `boxedKnot` the second definition has a field of its own type, and so has the instantiation;
to resolve the record of the field in either context creates nothing. -/
theorem self_references_boxed :
    let config := { Config.minimal with materialize := true }
    let arena := (Resolver.empty.run .boxedKnot config).arena
    let resolve (c : ResolvedClass) := Resolving.descriptor .boxedKnot 4 (.ofKey c.key)
      ⟨0, .genericInst, 0, false, false, .instantiation 0x101C⟩
    ∃ c c', arena.class? ⟨1⟩ = some c ∧ c.isInstantiation = false ∧
      c.fields.map (fun f => arena.type? f.type) = [some (.class ⟨1⟩)] ∧
      Resolving.ComesTo arena (resolve c) ⟨1⟩ ∧
      arena.class? ⟨2⟩ = some c' ∧ c'.isInstantiation = true ∧
      c'.fields.map (fun f => arena.type? f.type) = [some (.class ⟨2⟩)] ∧
      Resolving.ComesTo arena (resolve c') ⟨2⟩ := by
  intro config arena resolve
  have h_arena : arena = (Resolver.completeRange .boxedKnot 4 0 3
      (Resolver.empty.start .boxedKnot config)).arena :=
    congrArg Resolver.arena (Resolver.run_of_one_round (by decide +kernel) (by decide +kernel))
  have h_open : (arena.class? ⟨1⟩).map (fun c =>
      (c.definition, c.isInstantiation, c.fields.map fun f => arena.type? f.type)) =
        some (1, false, [some (.class ⟨1⟩)]) := by
    rw [h_arena]
    decide +kernel
  have h_instantiated : (arena.class? ⟨2⟩).map (fun c =>
      (c.definition, c.isInstantiation, c.fields.map fun f => arena.type? f.type)) =
        some (1, true, [some (.class ⟨2⟩)]) := by
    rw [h_arena]
    decide +kernel
  have h_args : (arena.class? ⟨2⟩).map (fun c => (c.key.classArgs.length, c.key.methodArgs)) =
      some (1, []) := by
    rw [h_arena]
    decide +kernel
  obtain ⟨c, h_c, h_open⟩ := Option.map_eq_some_iff.mp h_open
  simp only [Prod.mk.injEq] at h_open
  obtain ⟨h_definition, h_plain, h_field⟩ := h_open
  obtain ⟨c', h_c', h_instantiated⟩ := Option.map_eq_some_iff.mp h_instantiated
  simp only [Prod.mk.injEq] at h_instantiated
  obtain ⟨h_definition', h_inst, h_field'⟩ := h_instantiated
  rw [h_c', Option.map_some, Option.some_inj, Prod.mk.injEq] at h_args
  -- every class is new
  have h_run : Resolver.RunsFrom .boxedKnot config .empty (Resolver.empty.run .boxedKnot config) :=
    Resolver.runsFrom_run (Arena.sound_empty _)
  have h_sound : arena.Sound .boxedKnot :=
    (Resolver.Reachable.serve .run .empty trivial : Resolver.Reachable .boxedKnot config _).sound
  have h_knots := (self_references .boxedKnot config).1 .empty _ .empty h_run
  have h_knot := h_knots ⟨1⟩ c (Nat.not_lt_zero _) h_c [⟨0, 0, 0, 0, 0, 0⟩] 0x101C
    (h_definition ▸ Metadata.boxedKnot_declaresParameters) (.inl h_plain)
    (h_definition ▸ Metadata.boxedKnot_namesOpen) arena le_rfl h_sound 63
  have h_knot' := h_knots ⟨2⟩ c' (Nat.not_lt_zero _) h_c' [⟨0, 0, 0, 0, 0, 0⟩] 0x101C
    (h_definition' ▸ Metadata.boxedKnot_declaresParameters) (.inr h_args)
    (h_definition' ▸ Metadata.boxedKnot_namesOpen) arena le_rfl h_sound 63
  exact ⟨c, c', h_c, h_plain, h_field, h_knot.2 _ (by decide) rfl rfl, h_c', h_inst, h_field',
    h_knot'.2 _ (by decide) rfl rfl⟩

end CellState

end GlobalMetadata
