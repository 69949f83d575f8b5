import GlobalMetadata.Proofs.Refinement

/-!
# What references resolve to

This module follows resolution from the class of a key up to a whole descriptor, one step at a time,
each against its meaning. A scope of ids stands for a scope of terms, an id that comes out stands
for the term that is meant, and both go through everything that is created in between.
-/

namespace GlobalMetadata

/-- A scope stands for a scope of terms. -/
def Arena.UnfoldsScope (arena : Arena) (terms : TermScope) (scope : GenericScope) : Prop :=
  arena.UnfoldsAll terms.classArgs scope.classArgs ∧
    arena.UnfoldsAll terms.methodArgs scope.methodArgs

theorem Arena.UnfoldsScope.mono {arena arena' : Arena} (h_le : arena ≤ arena') {terms : TermScope}
    {scope : GenericScope} (h : arena.UnfoldsScope terms scope) : arena'.UnfoldsScope terms scope :=
  ⟨h.1.mono h_le, h.2.mono h_le⟩

theorem Arena.unfoldsScope_empty (arena : Arena) : arena.UnfoldsScope .empty .empty :=
  ⟨.nil, .nil⟩

theorem Arena.UnfoldsKey.scope {arena : Arena} {k : KeyTerm} {key : ClassKey}
    (h : arena.UnfoldsKey k key) : arena.UnfoldsScope (.ofKey k) (.ofKey key) :=
  h.2

theorem Arena.UnfoldsScope.args {arena : Arena} {terms : TermScope} {scope : GenericScope}
    (h : arena.UnfoldsScope terms scope) (ofMethod : Bool) :
    arena.UnfoldsAll (terms.args ofMethod) (scope.args ofMethod) := by
  cases ofMethod with
  | false => exact h.1
  | true => exact h.2

theorem Arena.UnfoldsAll.getElem? {arena : Arena} {ts : List TypeTerm} {ids : List TypeId}
    (h : arena.UnfoldsAll ts ids) (i : Nat) :
    ids[i]? = none ∧ ts[i]? = none ∨
      ∃ id t, ids[i]? = some id ∧ ts[i]? = some t ∧ arena.Unfolds t id := by
  induction ts generalizing ids i with
  | nil =>
    subst h
    exact .inl ⟨rfl, rfl⟩
  | cons t ts ih =>
    obtain ⟨id, rest, rfl, h_t, h_rest⟩ := h
    cases i with
    | zero => exact .inr ⟨id, t, rfl, rfl, h_t⟩
    | succ i => exact ih h_rest i

namespace Resolving

section Reference

variable {m : Metadata} {arena : Arena}

/-- An instantiation shows what its definition shows, but for the arguments and the depth. -/
theorem shows_instantiated (h : arena.Sound m) {lineage : Lineage} {c : ResolvedClass}
    {key : ClassKey} {k : KeyTerm}
    (h_shows : arena.Shows m lineage (.ofDefinition k.definition) c)
    (h_k : arena.UnfoldsKey k key) (h_inst : key.isInstantiation = true) :
    arena.Shows m lineage k
      { c with
        key := key
        genericArgs := key.classArgs
        depth := arena.keyDepth key
        members := none } :=
  { h_shows with
    key := h_k
    genericArgs := by
      rw [if_pos (h_k.isInstantiation_eq ▸ h_inst)]
      exact h_k.2.1
    depth := h.keyDepth_eq h_k }

/-- A class that is there for a key. -/
theorem classOf_found_follows (h : arena.Sound m) {key : ClassKey} {k : KeyTerm}
    (h_k : arena.UnfoldsKey k key) {id : ClassId} (h_found : arena.find? key = some id) :
    Follows m arena (pure id) (Meaning.classOf m k) fun arena' id k' =>
      k' = k ∧ arena'.find? key = some id := by
  obtain ⟨c, h_c, h_key⟩ := Arena.find?_eq_some_iff.mp h_found
  obtain ⟨lineage, h_traces, -⟩ := h.shows_of_key h_c (h_key ▸ h_k)
  -- a class that is there has a definition with a chain
  have h_read : Meaning.definition m k.definition = pure lineage :=
    Meaning.read_ok (Metadata.lineage_eq_ok_iff.mpr h_traces)
  rw [Meaning.classOf, h_read, pure_bind]
  refine .stay h rfl (fun k' h_k' => ?_) rfl ⟨rfl, h_found⟩
  obtain rfl := List.mem_singleton.mp h_k'
  exact Arena.holds_of_find? h_found h_k

/-- **Classes.** The class for a key. -/
theorem classOf_follows (h : arena.Sound m) {key : ClassKey} {k : KeyTerm}
    (h_k : arena.UnfoldsKey k key) :
    Follows m arena (classOf m key) (Meaning.classOf m k) fun arena' id k' =>
      k' = k ∧ arena'.find? key = some id := by
  have h_definition : key.definition = k.definition := h_k.1
  unfold classOf
  split
  next h_inst =>
    refine .bind_get ?_
    split
    next id h_found => exact classOf_found_follows h h_k h_found
    next =>
      rw [h_definition, Meaning.classOf]
      refine (definition_follows h k.definition).bind
        fun arena' base lineage h_le h_sound ⟨h_traces, h_base⟩ => .bind_get ?_
      obtain ⟨c, lineage', h_c, -, h_traces', h_shows⟩ := h_sound.shows_of_definition h_base
      -- all but the arguments and the depth is taken over
      have h_shows' := shows_instantiated h_sound h_shows (h_k.mono h_le) h_inst
      rw [h_c]
      refine (insert_follows h_sound h_traces' h_shows' rfl rfl ?_ (.inr ?_) rfl).weaken ?_
      · exact fun k' h_mem => List.mem_singleton.mp h_mem
      · exact List.mem_singleton_self k
      · exact fun id k' h_both => h_both.symm
  next h_inst =>
    -- no arguments: the key is that of the definition
    have h_key : key = .ofDefinition k.definition := by
      rw [← h_definition]
      exact ClassKey.eq_ofDefinition (Bool.not_eq_true _ ▸ h_inst)
    rw [h_definition, Meaning.classOf, ← bind_pure (definition m k.definition)]
    refine (definition_follows h k.definition).bind
      fun arena' id lineage h_le h_sound ⟨h_traces, h_id⟩ => ?_
    rw [← h_key] at h_id
    refine .stay h_sound rfl (fun k' h_k' => ?_) rfl ⟨rfl, h_id⟩
    obtain rfl := List.mem_singleton.mp h_k'
    exact Arena.holds_of_find? h_id (h_k.mono h_le)

/-- The type of a definition. -/
theorem definitionType_follows (h : arena.Sound m) (index : Nat) :
    Follows m arena (definition m index >>= classType) (Meaning.definitionType m index)
      fun arena' id t => arena'.Unfolds t id :=
  (definition_follows h index).bind fun _ _ _ _ h_sound ⟨_, h_id⟩ =>
    classType_follows h_sound h_id (Arena.unfoldsKey_ofDefinition.mpr rfl)

variable (maxDepth : Nat) {terms : TermScope} {scope : GenericScope}

/-- A generic parameter stands for its argument, or for itself. -/
theorem parameter_follows (h : arena.Sound m) (h_scope : arena.UnfoldsScope terms scope)
    (index : Nat) (ofMethod : Bool) :
    Follows m arena (parameter m scope index ofMethod) (Meaning.parameter m terms index ofMethod)
      fun arena' id t => arena'.Unfolds t id := by
  refine .bind_read h fun row _ => ?_
  rcases (h_scope.args ofMethod).getElem? row.number with
    ⟨h_id, h_t⟩ | ⟨id, t, h_id, h_t, h_unfolds⟩
  · simp only [h_id, h_t]
    refine .bind_read h fun name _ => ?_
    exact intern_follows h _ (.parameter row.number ofMethod name) trivial ⟨rfl, rfl, rfl⟩
  · simp only [h_id, h_t]
    exact .pure h h_unfolds

/-- What a resolution of addresses has to do: it follows a meaning of addresses in every sound
arena that extends a given one. -/
def ResolvesAs (m : Metadata) (arena : Arena) (resolve : Nat → Resolving TypeId)
    (meaning : Nat → Meaning TypeTerm) : Prop :=
  ∀ address arena', arena ≤ arena' → arena'.Sound m →
    Follows m arena' (resolve address) (meaning address) fun arena'' id t => arena''.Unfolds t id

theorem ResolvesAs.mono {arena' : Arena} (h_le : arena ≤ arena') {resolve : Nat → Resolving TypeId}
    {meaning : Nat → Meaning TypeTerm} (h : ResolvesAs m arena resolve meaning) :
    ResolvesAs m arena' resolve meaning :=
  fun address arena'' h_le' => h address arena'' (le_trans h_le h_le')

variable {resolve : Nat → Resolving TypeId} {meaning : Nat → Meaning TypeTerm}

/-- A list of arguments stands for the list of what they stand for. -/
theorem arguments_follows (h : arena.Sound m) (h_resolve : ResolvesAs m arena resolve meaning)
    (address : Nat) :
    Follows m arena (arguments m resolve address) (Meaning.arguments m meaning address)
      fun arena' ids ts => arena'.UnfoldsAll ts ids := by
  unfold arguments Meaning.arguments
  split
  · exact .pure h .nil
  · refine .bind_read h fun inst _ => .bind_read h fun addresses _ => ?_
    refine (Follows.mapM h (fun _ _ _ _ h_le h_t => h_t.mono h_le) addresses
      fun address _ => h_resolve address).weaken fun ids ts h_all => ?_
    exact Arena.unfoldsAll_iff.mpr h_all

/-- Whether the arguments are the own parameters of the definition can be seen by their ids. -/
theorem isOpen_eq (h : arena.Sound m) {key : ClassKey} {k : KeyTerm}
    (h_k : arena.UnfoldsKey k key) {base : ClassId} {lineage : Lineage}
    (h_base : IsDefinition m k.definition arena base lineage) :
    (key.methodArgs.isEmpty && (arena.class? base).any (·.genericArgs = key.classArgs)) =
      (k.methodArgs.isEmpty && k.classArgs = lineage.frame.openArgs) := by
  obtain ⟨h_traces, h_found⟩ := h_base
  obtain ⟨c, lineage', h_c, -, h_traces', h_shows⟩ := h.shows_of_definition h_found
  obtain rfl := h_traces.unique h_traces'
  have h_args : arena.UnfoldsAll lineage.frame.openArgs c.genericArgs := h_shows.genericArgs
  have h_same : c.genericArgs = key.classArgs ↔ k.classArgs = lineage.frame.openArgs := by
    constructor
    · intro h_ids
      rw [h_ids] at h_args
      exact h_k.2.1.unique h_args
    · intro h_terms
      rw [← h_terms] at h_args
      exact h_args.inj h_k.2.1
  rw [h_k.2.2.isEmpty_eq, h_c, Option.any_some, decide_eq_decide.mpr h_same]

/-- **Instantiations.** The two exceptions are decided by ids where terms are meant, which comes to
the same. -/
theorem instantiate_follows (h : arena.Sound m) {key : ClassKey} {k : KeyTerm}
    (h_k : arena.UnfoldsKey k key) :
    Follows m arena (instantiate m maxDepth key) (Meaning.instantiate m maxDepth k)
      fun arena' id t => arena'.Unfolds t id := by
  unfold instantiate Meaning.instantiate
  rw [h_k.1]
  refine (definition_follows h k.definition).bind
    fun arena' base lineage h_le h_sound ⟨h_traces, h_base⟩ => .bind_get ?_
  have h_k' := h_k.mono h_le
  have h_type := classType_follows h_sound h_base
    (Arena.unfoldsKey_ofDefinition.mpr (rfl : KeyTerm.ofDefinition k.definition = _))
  dsimp only
  rw [isOpen_eq h_sound h_k' ⟨h_traces, h_base⟩, h_sound.keyDepth_eq h_k']
  split
  · exact h_type
  · split
    · refine (truncate_follows h_sound).bind fun arena'' _ _ h_le' h_sound' _ => ?_
      exact classType_follows h_sound' (Arena.find?_mono h_le' h_base)
        (Arena.unfoldsKey_ofDefinition.mpr rfl)
    · refine (classOf_follows h_sound h_k').bind
        fun arena'' id k' h_le' h_sound' ⟨h_same, h_id⟩ => ?_
      rw [h_same]
      exact classType_follows h_sound' h_id (h_k'.mono h_le')

/-- The instantiation at an address. -/
theorem instantiation_follows (h : arena.Sound m) (h_resolve : ResolvesAs m arena resolve meaning)
    (address : Nat) :
    Follows m arena (instantiation m maxDepth resolve address)
      (Meaning.instantiation m maxDepth meaning address)
      fun arena' id t => arena'.Unfolds t id := by
  refine .bind_read h fun generic _ => .bind_read h fun row _ => ?_
  refine (arguments_follows h h_resolve generic.classInst).bind
    fun arena₁ classIds classArgs h_le₁ h_sound₁ h_class => ?_
  refine (arguments_follows h_sound₁ (h_resolve.mono h_le₁) generic.methodInst).bind
    fun arena₂ methodIds methodArgs h_le₂ h_sound₂ h_method => ?_
  exact instantiate_follows maxDepth h_sound₂ ⟨rfl, h_class.mono h_le₂, h_method⟩

/-- What a descriptor stands for, but for its by-reference flag. -/
theorem payload_follows (h : arena.Sound m) (h_scope : arena.UnfoldsScope terms scope)
    (h_resolve : ResolvesAs m arena resolve meaning) (d : Descriptor) :
    Follows m arena (payload m maxDepth scope resolve d)
      (Meaning.payload m maxDepth terms meaning d) fun arena' id t => arena'.Unfolds t id := by
  unfold payload Meaning.payload
  split
  · exact intern_follows h .void .void trivial trivial
  cases d.payload with
  | none => exact intern_follows h (.primitive d.kind) (.primitive d.kind) trivial rfl
  | definition row => exact definitionType_follows h row
  | element address =>
    refine (h_resolve address arena (le_refl _) h).bind
      fun arena' element t h_le h_sound h_element => ?_
    -- the kind picks the same form on both sides
    cases d.kind with
    | ptr => exact intern_follows h_sound _ (.pointer t) h_element.hasType h_element
    | byRef => exact intern_follows h_sound _ (.byref t) h_element.hasType h_element
    | _ => exact intern_follows h_sound _ (.array t 1) h_element.hasType ⟨rfl, h_element⟩
  | array address =>
    refine .bind_read h fun shape _ => ?_
    refine (h_resolve shape.element arena (le_refl _) h).bind
      fun arena' element t h_le h_sound h_element => ?_
    exact intern_follows h_sound _ (.array t (max shape.rank 1)) h_element.hasType ⟨rfl, h_element⟩
  | parameter index => exact parameter_follows h h_scope index _
  | instantiation address => exact instantiation_follows maxDepth h h_resolve address

/-- **Descriptors**, by induction on how deeply they may nest. -/
theorem descriptorWithin_follows (h : arena.Sound m) (h_scope : arena.UnfoldsScope terms scope)
    (levels : Nat) (d : Descriptor) :
    Follows m arena (descriptorWithin m maxDepth scope levels d)
      (Meaning.descriptorWithin m maxDepth terms levels d)
      fun arena' id t => arena'.Unfolds t id := by
  induction levels generalizing arena d with
  | zero => exact .throw h _
  | succ levels ih =>
    have h_resolve : ResolvesAs m arena (atAddress m (descriptorWithin m maxDepth scope levels))
        (Meaning.atAddress m (Meaning.descriptorWithin m maxDepth terms levels)) :=
      fun address arena' h_le h_sound =>
        .bind_read h_sound fun d' _ => ih h_sound (h_scope.mono h_le) d'
    refine (payload_follows maxDepth h h_scope h_resolve d).bind
      fun arena' id t h_le h_sound h_t => ?_
    split
    · exact intern_follows h_sound _ (.byref t) h_t.hasType h_t
    · exact .pure h_sound h_t

theorem descriptor_follows (h : arena.Sound m) (h_scope : arena.UnfoldsScope terms scope)
    (d : Descriptor) :
    Follows m arena (descriptor m maxDepth scope d) (Meaning.descriptor m maxDepth terms d)
      fun arena' id t => arena'.Unfolds t id :=
  descriptorWithin_follows maxDepth h h_scope _ d

theorem typeIndex_follows (h : arena.Sound m) (h_scope : arena.UnfoldsScope terms scope)
    (index : Nat) :
    Follows m arena (typeIndex m maxDepth scope index) (Meaning.typeIndex m maxDepth terms index)
      fun arena' id t => arena'.Unfolds t id :=
  .bind_read h fun d _ => descriptor_follows maxDepth h h_scope d

/-- **Types.** Whatever the source, what comes out stands for what is meant. -/
theorem type_follows (h : arena.Sound m) (h_scope : arena.UnfoldsScope terms scope)
    (source : TypeSource) :
    Follows m arena (type m maxDepth scope source) (Meaning.type m maxDepth terms source)
      fun arena' id t => arena'.Unfolds t id := by
  cases source with
  | index position => exact typeIndex_follows maxDepth h h_scope position
  | address va => exact .bind_read h fun d _ => descriptor_follows maxDepth h h_scope d
  | definition row => exact definitionType_follows h row

/-- An instantiation that the registration tables list. -/
theorem listed_follows (h : arena.Sound m) (address : Nat) :
    Follows m arena (listed m maxDepth address) (Meaning.listed m maxDepth address)
      fun arena' id t => arena'.Unfolds t id := by
  refine instantiation_follows maxDepth h (fun address arena' _ h_sound => ?_) address
  exact .bind_read h_sound fun d _ =>
    descriptorWithin_follows maxDepth h_sound arena'.unfoldsScope_empty _ d

end Reference

end Resolving
end GlobalMetadata
