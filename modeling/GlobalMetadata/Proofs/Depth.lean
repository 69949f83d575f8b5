import GlobalMetadata.Proofs.Isolation
import GlobalMetadata.Proofs.Termination

/-!
# Generic depth

A class has the depth of its key written on it, and the types of classes hand it on, so that the
depth of a new key is read off its arguments and never counted again. What is read is the depth of
the term that the key stands for (`Arena.Shows.depth`), however its arguments came about.

The limit is looked at in one place only, where a record of an instantiation is evaluated. A caller
that asks for the class of a key goes past it. In all other states no class is deeper than the limit
(`Arena.Shallow`): whatever a step asks for is not too deep (`Meaning.Stays`), and nothing else is
created.

A record is evaluated in three steps: its arguments, its definition, and then one of three things
(`Resolving.Evaluated`).

* Arguments that are the own parameters of the definition stand for the definition itself. This
  comes first, so that nothing is counted, whatever the limit is.
* A key that is too deep gives way to the definition, and is counted once.
* Any other key gets its class.
-/

namespace GlobalMetadata

/-! ### States without keys of the caller -/

/-- A request that does not put a key of the caller forward. -/
def Request.IsUnforced : Request → Prop
  | .class _ => False
  | .type .. | .intern _ | .run => True

/-- A state that a caller can bring a new resolver to without forging ids or making keys. -/
inductive Resolver.Unforced (m : Metadata) (config : Config) : Resolver → Prop
  /-- A new resolver. -/
  | empty : Unforced m config .empty
  /-- One request later. -/
  | serve {resolver : Resolver} (request : Request) (before : Unforced m config resolver)
      (known : request.Known resolver.arena) (unforced : request.IsUnforced) :
      Unforced m config (resolver.serve m config request)
  /-- One run later, in any order. -/
  | run {resolver final : Resolver} (before : Unforced m config resolver)
      (runs : resolver.RunsFrom m config final) : Unforced m config final

theorem Resolver.Unforced.reachable {m : Metadata} {config : Config} {resolver : Resolver}
    (h : Unforced m config resolver) : Reachable m config resolver := by
  induction h with
  | empty => exact .empty
  | serve request _ h_known _ ih => exact .serve request ih h_known
  | run _ h_runs ih => exact .run ih h_runs

/-! ### No class is too deep -/

/-- No key is deeper than a limit. -/
def Arena.Shallow (maxDepth : Nat) (arena : Arena) : Prop :=
  ∀ k, arena.Holds k → k.depth ≤ maxDepth

namespace Meaning

variable {m : Metadata} {base : Set TypeTerm} (maxDepth : Nat) {scope : TermScope}

theorem type_stays (h_scope : BuiltScope m base scope) (source : TypeSource) :
    (type m maxDepth scope source).Stays m base maxDepth (m.Builds base) := by
  cases source with
  | index position => exact typeIndex_stays maxDepth h_scope position
  | address va => exact (stays_read _).bind fun d _ => descriptorWithin_stays maxDepth h_scope _ d
  | definition row => exact definitionType_stays m base maxDepth row

theorem listed_stays (address : Nat) :
    (listed m maxDepth address).Stays m base maxDepth (m.Builds base) := by
  have h_scope : BuiltScope m base .empty :=
    ⟨fun _ h_t => absurd h_t List.not_mem_nil, fun _ h_t => absurd h_t List.not_mem_nil⟩
  refine instantiation_stays maxDepth (fun address' => ?_) address
  exact (stays_read _).bind fun d _ => descriptorWithin_stays maxDepth h_scope _ d

/-- Asking for a class cuts nothing off. -/
theorem cuts_classOf (m : Metadata) (k : KeyTerm) : (classOf m k).cuts = 0 := by
  unfold classOf
  cases h : (definition m k.definition).value with
  | none =>
    rw [bind_of_none h]
    rfl
  | some lineage =>
    rw [bind_of_value h]
    rfl

/-- Anything can be built if everything is given. -/
theorem builtScope_univ (m : Metadata) (scope : TermScope) : BuiltScope m Set.univ scope :=
  ⟨fun _ _ => .base trivial, fun _ _ => .base trivial⟩

end Meaning

namespace Resolving

variable {m : Metadata} {arena : Arena} {maxDepth : Nat}

/-- **What asks for nothing deep creates nothing deep.** -/
theorem Follows.shallow {β γ : Type} {x : Resolving β} {y : Meaning γ} {R : Arena → β → γ → Prop}
    {Q : γ → Prop} (h_follows : Follows m arena x y R)
    (h_stays : y.Stays m Set.univ maxDepth Q) (h : arena.Shallow maxDepth) :
    (after x arena).Shallow maxDepth := by
  intro k h_k
  rcases h_follows.demanded k h_k with h_old | h_plain | h_demand
  · exact h k h_old
  · rw [KeyTerm.depth_eq_zero h_plain]
    exact Nat.zero_le maxDepth
  · exact (h_stays.demands k h_demand).2

theorem shallow_complete (h_sound : arena.Sound m) (h : arena.Shallow maxDepth) (id : ClassId) :
    (after (complete m maxDepth id) arena).Shallow maxDepth := by
  cases h_c : arena.class? id with
  | none =>
    rw [(complete_of_none maxDepth h_c).2]
    exact h
  | some c =>
    obtain ⟨lineage, owner, -, h_shows⟩ := h_sound.classes id c h_c
    have h_members := members_follows maxDepth h_sound h_c h_shows.key
    have h_after := h_members.shallow
      (Meaning.members_stays maxDepth owner (Meaning.builtScope_univ m _)) h
    rw [(complete_of_some maxDepth h_c).2]
    split
    · -- publishing members adds no key
      exact fun k h_k => h_after k (Arena.holds_of_publish h_members.sound h_k)
    · exact h_after

end Resolving

namespace Resolver

variable {m : Metadata} {config : Config} {resolver : Resolver}

/-- **Visits keep the limit.** -/
theorem shallow_make (h_sound : resolver.arena.Sound m)
    (h : resolver.arena.Shallow config.maxGenericDepth) (v : Visit) :
    (make m config resolver v).arena.Shallow config.maxGenericDepth := by
  cases v with
  | definition d =>
    rw [make, seed, attempt_arena]
    exact (Resolving.definition_follows h_sound d).shallow (Meaning.definition_stays m _ _ d) h
  | listing entry =>
    rw [make, seedListed, attempt_arena]
    exact (Resolving.listed_follows _ h_sound entry.1).shallow (Meaning.listed_stays _ entry.1) h
  | «class» i =>
    rw [make, completeClass, attempt_arena]
    exact Resolving.shallow_complete h_sound h ⟨i⟩

theorem RunsFrom.shallow {final : Resolver} (h_runs : RunsFrom m config resolver final)
    (h_sound : resolver.arena.Sound m) (h : resolver.arena.Shallow config.maxGenericDepth) :
    final.arena.Shallow config.maxGenericDepth :=
  (h_runs.induction (P := fun r => r.arena.Sound m ∧ r.arena.Shallow config.maxGenericDepth)
    (fun _ v h_r => ⟨sound_make h_r.1 v, shallow_make h_r.1 h_r.2 v⟩) ⟨h_sound, h⟩).2

theorem shallow_serve (h_sound : resolver.arena.Sound m)
    (h : resolver.arena.Shallow config.maxGenericDepth) {request : Request}
    (h_known : request.Known resolver.arena) (h_unforced : request.IsUnforced) :
    (resolver.serve m config request).arena.Shallow config.maxGenericDepth := by
  cases request with
  | «class» key => exact absurd h_unforced not_false
  | type source scope =>
    obtain ⟨terms, h_terms⟩ := exists_unfoldsScope h_sound h_known
    exact (Resolving.type_follows config.maxGenericDepth h_sound h_terms source).shallow
      (Meaning.type_stays _ (Meaning.builtScope_univ m terms) source) h
  | intern made =>
    -- a type has no key
    rintro k ⟨id, c, h_c, h_key⟩
    exact h k ⟨id, c, h_c, h_sound.unfoldsKey_of_le h_c (resolver.arena.le_intern made) h_key⟩
  | run => exact (runsFrom_run h_sound).shallow h_sound h

/-- **The limit is kept** in every state that a caller without keys of its own can see. -/
theorem Unforced.shallow (h : Unforced m config resolver) :
    resolver.arena.Shallow config.maxGenericDepth := by
  induction h with
  | empty =>
    rintro k ⟨id, c, h_c, -⟩
    cases h_c
  | serve request h_before h_known h_unforced ih =>
    exact shallow_serve h_before.reachable.sound ih h_known h_unforced
  | run h_before h_runs ih => exact h_runs.shallow h_before.reachable.sound ih

end Resolver

/-! ### Records of instantiations -/

namespace Resolving

/-- The key that a record of an instantiation names, with its arguments evaluated. -/
def recordKey (m : Metadata) (resolve : Nat → Resolving TypeId) (address : Nat) :
    Resolving ClassKey := do
  let generic ← m.registration.genericClassAt address
  let row ← m.instantiatedDefinition generic
  let classArgs ← arguments m resolve generic.classInst
  let methodArgs ← arguments m resolve generic.methodInst
  return ⟨row, classArgs, methodArgs⟩

/-- The arguments of a record come first. -/
theorem instantiation_eq (m : Metadata) (maxDepth : Nat) (resolve : Nat → Resolving TypeId)
    (address : Nat) : instantiation m maxDepth resolve address =
      recordKey m resolve address >>= instantiate m maxDepth := by
  simp only [instantiation, recordKey, bind_assoc, pure_bind]

section Records

variable {m : Metadata} {arena : Arena} {key : ClassKey}

theorem recordKey_unfolds (h : arena.Sound m) {resolve : Nat → Resolving TypeId}
    {meaning : Nat → Meaning TypeTerm} (h_resolve : ResolvesAs m arena resolve meaning)
    {address : Nat} (h_key : result (recordKey m resolve address) arena = .ok key) :
    (after (recordKey m resolve address) arena).Sound m ∧
      ∃ k, (after (recordKey m resolve address) arena).UnfoldsKey k key := by
  have h_follows : Follows m arena (recordKey m resolve address) (do
      let generic ← m.registration.genericClassAt address
      let row ← m.instantiatedDefinition generic
      let classArgs ← Meaning.arguments m meaning generic.classInst
      let methodArgs ← Meaning.arguments m meaning generic.methodInst
      return KeyTerm.mk row classArgs methodArgs) fun arena' key k => arena'.UnfoldsKey k key := by
    refine .bind_read h fun generic _ => .bind_read h fun row _ => ?_
    refine (arguments_follows h h_resolve generic.classInst).bind
      fun arena₁ classIds classArgs h_le₁ h_sound₁ h_class => ?_
    refine (arguments_follows h_sound₁ (h_resolve.mono h_le₁) generic.methodInst).bind
      fun arena₂ methodIds methodArgs h_le₂ h_sound₂ h_method => ?_
    exact .pure h_sound₂ ⟨rfl, h_class.mono h_le₂, h_method⟩
  obtain ⟨k, -, h_k⟩ := h_follows.value key h_key
  exact ⟨h_follows.sound, k, h_k⟩

/-- What is cut off nowhere leaves the count alone. -/
theorem Follows.truncated_eq {β γ : Type} {x : Resolving β} {y : Meaning γ}
    {R : Arena → β → γ → Prop} (h : Follows m arena x y R) (h_cuts : y.cuts = 0) :
    (after x arena).truncated = arena.truncated := by
  have h_bounded := h.bounded
  rw [h_cuts] at h_bounded
  exact Nat.le_antisymm h_bounded h.grows.truncated

/-- Resolving the definition of a key cuts nothing off. -/
theorem truncated_definition (h : arena.Sound m) (index : Nat) :
    (after (definition m index) arena).truncated = arena.truncated :=
  (definition_follows h index).truncated_eq rfl

theorem classOf_found {id : ClassId} (h_found : arena.find? key = some id) :
    result (classOf m key) arena = .ok id ∧ after (classOf m key) arena = arena := by
  unfold classOf
  split
  · rw [result_get_bind, after_get_bind, h_found]
    exact ⟨rfl, rfl⟩
  next h_inst =>
    have h_plain : key = .ofDefinition key.definition :=
      ClassKey.eq_ofDefinition (Bool.not_eq_true _ ▸ h_inst)
    exact definitionWithin_found _ (h_plain ▸ h_found)

/-- The class for a key is there once that of its definition is. -/
theorem exists_classOf {base : ClassId}
    (h_base : arena.find? (.ofDefinition key.definition) = some base) :
    ∃ owner, result (classOf m key) arena = .ok owner := by
  have h_definition : result (definition m key.definition) arena = .ok base ∧
      after (definition m key.definition) arena = arena := definitionWithin_found _ h_base
  unfold classOf
  split
  · rw [result_get_bind]
    cases h_found : arena.find? key with
    | some owner => exact ⟨owner, rfl⟩
    | none =>
      obtain ⟨c, h_c, -⟩ := Arena.find?_eq_some_iff.mp h_base
      dsimp only
      rw [(bind_of_ok h_definition.1).1, h_definition.2, result_get_bind, h_c]
      exact ⟨_, rfl⟩
  · exact ⟨base, h_definition.1⟩

/-- An instantiation fails if its definition does. -/
theorem instantiate_of_error (maxDepth : Nat) {e : Error}
    (h_e : result (definition m key.definition) arena = .error e) :
    result (instantiate m maxDepth key) arena = .error e ∧
      after (instantiate m maxDepth key) arena = after (definition m key.definition) arena :=
  bind_of_error h_e

section Settle

variable {maxDepth : Nat} {base : ClassId} {c : ResolvedClass}

/-- **Own parameters** stand for the definition, and nothing is counted. -/
theorem settle_of_owns (maxDepth : Nat) (h_c : arena.class? base = some c) (h_owns : c.Owns key) :
    result (settle m maxDepth key base) arena = .ok (arena.intern (.class base)).1 ∧
      after (settle m maxDepth key base) arena = (arena.intern (.class base)).2 := by
  rw [settle, result_get_bind, after_get_bind]
  dsimp only
  rw [if_pos ((isOpen_eq_true_iff h_c).mpr h_owns)]
  exact ⟨rfl, rfl⟩

/-- **A key that is too deep** gives way to the definition, and is counted once. -/
theorem settle_of_deep (h_c : arena.class? base = some c) (h_owns : ¬ c.Owns key)
    (h_deep : maxDepth < arena.keyDepth key) :
    result (settle m maxDepth key base) arena = .ok (arena.truncate.intern (.class base)).1 ∧
      after (settle m maxDepth key base) arena = (arena.truncate.intern (.class base)).2 := by
  rw [settle, result_get_bind, after_get_bind]
  dsimp only
  rw [if_neg (mt (isOpen_eq_true_iff h_c).mp h_owns), if_pos h_deep]
  exact ⟨rfl, rfl⟩

/-- **Any other key** gets its class. -/
theorem settle_of_shallow (h_c : arena.class? base = some c) (h_owns : ¬ c.Owns key)
    (h_shallow : ¬ maxDepth < arena.keyDepth key) {owner : ClassId}
    (h_owner : result (classOf m key) arena = .ok owner) :
    result (settle m maxDepth key base) arena =
        .ok ((after (classOf m key) arena).intern (.class owner)).1 ∧
      after (settle m maxDepth key base) arena =
        ((after (classOf m key) arena).intern (.class owner)).2 := by
  rw [settle, result_get_bind, after_get_bind]
  dsimp only
  rw [if_neg (mt (isOpen_eq_true_iff h_c).mp h_owns), if_neg h_shallow]
  exact bind_of_ok h_owner

end Settle

/-- No instantiation has a class afterwards that had none before. -/
def AddsNoInstantiation (before final : Arena) : Prop :=
  ∀ k, final.Holds k → before.Holds k ∨ k.isInstantiation = false

/-- What an evaluated key has come to. Its arguments have been evaluated in `before`, and its
definition has the class `base`. -/
structure Evaluated (maxDepth : Nat) (key : ClassKey) (k : KeyTerm) (before : Arena)
    (base : ClassId) (c : ResolvedClass) (id : TypeId) (final : Arena) : Prop where
  /-- Own parameters stand for the definition, whatever the limit is. -/
  own : c.Owns key → final.type? id = some (.class base) ∧
    final.truncated = before.truncated ∧ AddsNoInstantiation before final
  /-- A key that is too deep gives way to the definition, and is counted once. -/
  deep : ¬ c.Owns key → maxDepth < k.depth → final.type? id = some (.class base) ∧
    final.truncated = before.truncated + 1 ∧ AddsNoInstantiation before final
  /-- Any other key gets its class. -/
  shallow : ¬ c.Owns key → k.depth ≤ maxDepth → final.truncated = before.truncated ∧
    ∃ owner, final.type? id = some (.class owner) ∧ final.find? key = some owner

section Evaluated

variable {maxDepth : Nat} {base : ClassId} {c : ResolvedClass} {k : KeyTerm}

/-- Interning a type and counting add no key. -/
theorem holds_of_class?_eq {arena' : Arena} (h : arena.Sound m) (h_le : arena ≤ arena')
    (h_same : ∀ id, arena'.class? id = arena.class? id) (h_k : arena'.Holds k) : arena.Holds k := by
  obtain ⟨id, c, h_c, h_key⟩ := h_k
  rw [h_same] at h_c
  exact ⟨id, c, h_c, h.unfoldsKey_of_le h_c h_le h_key⟩

/-- **After the definition**, a key comes to one of the three. -/
theorem exists_evaluated_settle (maxDepth : Nat) (h : arena.Sound m) (h_k : arena.UnfoldsKey k key)
    (h_found : arena.find? (.ofDefinition key.definition) = some base)
    (h_c : arena.class? base = some c) :
    ∃ id, result (settle m maxDepth key base) arena = .ok id ∧
      Evaluated maxDepth key k arena base c id (after (settle m maxDepth key base) arena) := by
  have h_depth := h.keyDepth_eq h_k
  by_cases h_owns : c.Owns key
  · obtain ⟨h_ok, h_after⟩ := settle_of_owns (m := m) maxDepth h_c h_owns
    rw [h_after]
    refine ⟨_, h_ok, fun _ => ⟨arena.type?_intern_self _, rfl, fun k' h_k' => .inl ?_⟩, ?_, ?_⟩
    · exact holds_of_class?_eq h (arena.le_intern _) (fun _ => rfl) h_k'
    · exact fun h_not => absurd h_owns h_not
    · exact fun h_not => absurd h_owns h_not
  by_cases h_deep : maxDepth < arena.keyDepth key
  · obtain ⟨h_ok, h_after⟩ := settle_of_deep (m := m) h_c h_owns h_deep
    rw [h_after]
    refine ⟨_, h_ok, fun h_own => absurd h_own h_owns, fun _ _ => ?_, fun _ h_le => ?_⟩
    · refine ⟨arena.truncate.type?_intern_self _, rfl, fun k' h_k' => .inl ?_⟩
      exact holds_of_class?_eq h (le_trans arena.le_truncate (arena.truncate.le_intern _))
        (fun _ => rfl) h_k'
    · rw [h_depth] at h_deep
      exact absurd h_le (Nat.not_le.mpr h_deep)
  · obtain ⟨owner, h_owner⟩ := exists_classOf (m := m) h_found
    obtain ⟨h_ok, h_after⟩ := settle_of_shallow h_c h_owns h_deep h_owner
    have h_classOf := classOf_follows h h_k
    obtain ⟨_, -, -, h_key⟩ := h_classOf.value owner h_owner
    rw [h_after]
    refine ⟨_, h_ok, fun h_own => absurd h_own h_owns, fun _ h_lt => ?_, fun _ _ => ⟨?_, owner, ?_⟩⟩
    · rw [h_depth] at h_deep
      exact absurd h_lt h_deep
    · exact h_classOf.truncated_eq (Meaning.cuts_classOf m k)
    · exact ⟨Arena.type?_intern_self _ _, h_key⟩

/-- The definition of a key adds no instantiation and cuts nothing off. -/
theorem Evaluated.of_definition (h : arena.Sound m) {id : TypeId} {final : Arena}
    (h_evaluated : Evaluated maxDepth key k (after (definition m key.definition) arena) base c id
      final) : Evaluated maxDepth key k arena base c id final := by
  have h_count := truncated_definition h key.definition
  have h_adds (h_final : AddsNoInstantiation (after (definition m key.definition) arena) final) :
      AddsNoInstantiation arena final := by
    intro k' h_k'
    rcases h_final k' h_k' with h_opened | h_plain
    · rcases (definition_follows h key.definition).demanded k' h_opened with
        h_old | h_plain | h_demand
      · exact .inl h_old
      · exact .inr h_plain
      · exact absurd h_demand List.not_mem_nil
    · exact .inr h_plain
  obtain ⟨h_own, h_deep, h_shallow⟩ := h_evaluated
  rw [h_count] at h_own h_deep h_shallow
  refine ⟨fun h_owns => ?_, fun h_owns h_lt => ?_, h_shallow⟩
  · obtain ⟨h_id, h_truncated, h_final⟩ := h_own h_owns
    exact ⟨h_id, h_truncated, h_adds h_final⟩
  · obtain ⟨h_id, h_truncated, h_final⟩ := h_deep h_owns h_lt
    exact ⟨h_id, h_truncated, h_adds h_final⟩

/-- **An instantiation** whose definition can be resolved comes to one of the three. -/
theorem exists_evaluated (maxDepth : Nat) (h : arena.Sound m) (h_k : arena.UnfoldsKey k key)
    (h_base : result (definition m key.definition) arena = .ok base) :
    ∃ c id, (after (definition m key.definition) arena).class? base = some c ∧
      c.key = .ofDefinition key.definition ∧
      result (instantiate m maxDepth key) arena = .ok id ∧
      Evaluated maxDepth key k arena base c id (after (instantiate m maxDepth key) arena) := by
  have h_definition := definition_follows h key.definition
  obtain ⟨_, -, -, h_found⟩ := h_definition.value base h_base
  obtain ⟨c, h_c, h_key⟩ := Arena.find?_eq_some_iff.mp h_found
  obtain ⟨id, h_id, h_evaluated⟩ := exists_evaluated_settle maxDepth
    h_definition.sound (h_k.mono h_definition.grows) h_found h_c
  obtain ⟨h_result, h_after⟩ := bind_of_ok (f := settle m maxDepth key) h_base
  rw [← instantiate_eq] at h_result h_after
  rw [h_result, h_after]
  exact ⟨c, id, h_c, h_key, h_id, h_evaluated.of_definition h⟩

end Evaluated

end Records

end Resolving

/-! ### The result -/

namespace Resolver

variable {m : Metadata} {config : Config} {resolver : Resolver}

/-- **Generic depth.** In every state that a caller without keys of its own can see, the depth that
is written on a class is that of its key, and no greater than the limit. And whatever the state, a
record of an instantiation, the arguments of which are evaluated, comes to nothing but

* the failure of its definition, if that cannot be resolved;
* the type of the definition, with no instantiation created and nothing counted, if the arguments
  are its own parameters;
* the type of the definition, with no instantiation created and one more counted, if the key is
  deeper than the limit;
* the type of the class for its key otherwise, with nothing counted. -/
theorem depth_bounded (h : Unforced m config resolver) :
    (∀ id c, resolver.arena.class? id = some c → ∃ k, resolver.arena.UnfoldsKey k c.key ∧
      c.depth = k.depth ∧ c.depth ≤ config.maxGenericDepth) ∧
    ∀ arena scope levels address key, Arena.Sound m arena → arena.HasScope scope →
      let resolve := Resolving.atAddress m
        (Resolving.descriptorWithin m config.maxGenericDepth scope levels)
      let evaluate := Resolving.instantiation m config.maxGenericDepth resolve address
      let argued := Resolving.after (Resolving.recordKey m resolve address) arena
      Resolving.result (Resolving.recordKey m resolve address) arena = .ok key →
      ∃ k, argued.UnfoldsKey k key ∧
        (∀ e, Resolving.result (Resolving.definition m key.definition) argued = .error e →
          Resolving.result evaluate arena = .error e ∧
            (Resolving.after evaluate arena).truncated = argued.truncated) ∧
        ∀ base, Resolving.result (Resolving.definition m key.definition) argued = .ok base →
          ∃ c id, (Resolving.after (Resolving.definition m key.definition) argued).class? base =
              some c ∧ c.key = .ofDefinition key.definition ∧
            Resolving.result evaluate arena = .ok id ∧
            Resolving.Evaluated config.maxGenericDepth key k argued base c id
              (Resolving.after evaluate arena) := by
  constructor
  · intro id c h_c
    obtain ⟨_, k, -, h_shows⟩ := h.reachable.sound.classes id c h_c
    refine ⟨k, h_shows.key, h_shows.depth, ?_⟩
    rw [h_shows.depth]
    exact h.shallow k ⟨id, c, h_c, h_shows.key⟩
  · intro arena scope levels address key h_sound h_scope resolve evaluate argued h_key
    obtain ⟨terms, h_terms⟩ := exists_unfoldsScope h_sound h_scope
    have h_resolve : Resolving.ResolvesAs m arena resolve (Meaning.atAddress m
        (Meaning.descriptorWithin m config.maxGenericDepth terms levels)) :=
      fun address' arena' h_le h_sound' => .bind_read h_sound' fun d _ =>
        Resolving.descriptorWithin_follows _ h_sound' (h_terms.mono h_le) levels d
    obtain ⟨h_argued, k, h_k⟩ := Resolving.recordKey_unfolds h_sound h_resolve h_key
    obtain ⟨h_result, h_after⟩ := Resolving.bind_of_ok
      (f := Resolving.instantiate m config.maxGenericDepth) h_key
    rw [← Resolving.instantiation_eq] at h_result h_after
    refine ⟨k, h_k, fun e h_e => ?_, fun base h_base => ?_⟩
    · obtain ⟨h_error, h_same⟩ := Resolving.instantiate_of_error config.maxGenericDepth h_e
      refine ⟨h_result.trans h_error, ?_⟩
      rw [h_after, h_same]
      exact Resolving.truncated_definition h_argued key.definition
    · obtain ⟨c, id, h_c, h_plain, h_id, h_evaluated⟩ :=
        Resolving.exists_evaluated config.maxGenericDepth h_argued h_k h_base
      rw [← h_after] at h_evaluated
      exact ⟨c, id, h_c, h_plain, h_result.trans h_id, h_evaluated⟩

/-- Without any depth the instantiation in `boxed` gives way to its definition, and is counted. -/
theorem depth_bounded_boxed :
    let config := { Config.minimal with maxGenericDepth := 0 }
    let step := Resolving.listed Metadata.boxed config.maxGenericDepth 0x1000
    (∀ id c, (empty.run Metadata.boxed config).arena.class? id = some c → c.depth = 0) ∧
      ∃ id, Resolving.result step .empty = .ok id ∧
        (Resolving.after step .empty).type? id = some (.class ⟨0⟩) ∧
        (Resolving.after step .empty).truncated = 1 ∧
        ¬ (Resolving.after step .empty).Holds Metadata.boxedKey := by
  intro config step
  have h_run : Unforced Metadata.boxed config (empty.run Metadata.boxed config) :=
    .serve .run .empty trivial trivial
  obtain ⟨h_depth, h_evaluate⟩ := depth_bounded h_run
  refine ⟨fun id c h_c => ?_, ?_⟩
  · obtain ⟨k, -, -, h_le⟩ := h_depth id c h_c
    exact Nat.le_zero.mp h_le
  have h_scope : Arena.empty.HasScope .empty :=
    ⟨fun _ h_id => absurd h_id List.not_mem_nil, fun _ h_id => absurd h_id List.not_mem_nil⟩
  let argued := Resolving.after (Resolving.recordKey Metadata.boxed (Resolving.atAddress
    Metadata.boxed (Resolving.descriptorWithin Metadata.boxed 0 .empty nestingLimit)) 0x1000) .empty
  obtain ⟨k, h_k, -, h_settled⟩ := h_evaluate .empty .empty nestingLimit 0x1000 ⟨1, [⟨0⟩], []⟩
    (Arena.sound_empty _) h_scope (by decide +kernel)
  obtain ⟨c, id, h_c, -, h_id, h_evaluated⟩ := h_settled ⟨0⟩ (by decide +kernel)
  -- the argument is an integer, and not the parameter of the definition
  have h_args : ((Resolving.after (Resolving.definition Metadata.boxed 1) argued).class? ⟨0⟩).map
      (·.genericArgs) = some [⟨1⟩] := by
    decide +kernel
  have h_owns : ¬ c.Owns ⟨1, [⟨0⟩], []⟩ := by
    rintro ⟨-, h_same⟩
    have h_c' := congrArg (Option.map (·.genericArgs)) h_c
    rw [Option.map_some, h_same] at h_c'
    exact absurd (h_args.symm.trans h_c') (by decide)
  have h_deep : 0 < k.depth := by
    rw [KeyTerm.depth_eq (h_k.isInstantiation_eq.symm.trans rfl)]
    exact Nat.succ_pos _
  obtain ⟨h_type, h_count, h_holds⟩ := h_evaluated.deep h_owns h_deep
  have h_argued : argued.truncated = 0 ∧ argued.classes.size = 0 := by decide +kernel
  refine ⟨id, h_id, h_type, h_count.trans (congrArg Nat.succ h_argued.1), fun h_key => ?_⟩
  rcases h_holds _ h_key with ⟨owner, c', h_c', -⟩ | h_plain
  · -- no class was there before the definition
    have h_lt : owner.index < argued.classes.size := Arena.hasClass_iff.mpr ⟨c', h_c'⟩
    rw [h_argued.2] at h_lt
    exact Nat.not_lt_zero _ h_lt
  · exact absurd h_plain (by decide)

end Resolver

/-! ### What is not counted -/

/-- Two definitions as in `boxed`, but that the type of the field is the second definition with its
own parameter put in. -/
def Metadata.boxedOwn : Metadata :=
  { boxed with
    registration :=
      { boxed.registration with
        types := #[⟨0, .genericInst, 0, false, false, .instantiation 0x1000⟩,
          ⟨0, .var, 0, false, false, .parameter 0⟩] } }

/-- Two definitions as in `boxed`, but that the second one cannot be named. -/
def Metadata.boxedUnnamed : Metadata :=
  { boxed with
    typeDefinitions := #[
      { nestedRow none with fieldStart := 0, fieldCount := 1 },
      { nestedRow none with genericContainerIndex := some 0, nameIndex := 9 }] }

namespace Resolving

/-- The arguments of the record in one of these, evaluated. -/
def boxedArguments (m : Metadata) : Resolving ClassKey :=
  recordKey m (atAddress m (descriptorWithin m 0 .empty nestingLimit)) 0x1000

/-- **Not everything that is too deep is counted.** The instantiation of a definition with its own
parameter is one deep, and without any depth it stands for the definition, but nothing is counted.
An instantiation as deep, the definition of which cannot be named, fails. -/
theorem own_uncounted :
    (∃ key id, result (boxedArguments .boxedOwn) .empty = .ok key ∧
      0 < (after (listed .boxedOwn 0 0x1000) .empty).keyDepth key ∧
      result (listed .boxedOwn 0 0x1000) .empty = .ok id ∧
      (after (listed .boxedOwn 0 0x1000) .empty).truncated =
        (after (boxedArguments .boxedOwn) .empty).truncated) ∧
    ∃ key e, result (boxedArguments .boxedUnnamed) .empty = .ok key ∧
      0 < (after (listed .boxedUnnamed 0 0x1000) .empty).keyDepth key ∧
      result (listed .boxedUnnamed 0 0x1000) .empty = .error e := by
  refine ⟨⟨⟨1, [⟨0⟩], []⟩, ⟨1⟩, ?_⟩, ⟨⟨1, [⟨0⟩], []⟩, .outOfBounds, ?_⟩⟩
  · decide +kernel
  · decide +kernel

end Resolving

end GlobalMetadata
