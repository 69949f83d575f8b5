import GlobalMetadata.Graph
import Mathlib.Logic.Relation

/-!
# What a step can do to the arena

A step of resolution is put together from look-ups and from five ways to change the arena: a type is
interned, the class of a definition is created, a class is created for an instantiation, one more
instantiation is counted as cut off, or members are published. `Arena.Change` lists the five, each
with what the code has made sure of when it comes to it, and `Resolving.Changes` says that a step
does nothing else, also when it fails.

So an invariant of arenas is proved for five changes, and no step has to be looked at again
(`Resolving.Changes.keeps`).

Which keys get a class is left open. A caller may ask for any key; a run asks for the class of a key
only if it is not too deep and does not stand for its definition (`Arena.Admits`).

* `Resolving.result` and `Resolving.after` are the two halves of a step, and `bind_of_ok` and
  `bind_of_error` say what the halves of a sequence are;
* `Resolving.Yields` is about the value that a step gives;
* one lemma `changes_*` for each step of resolution.
-/

namespace GlobalMetadata

open Relation

/-! ### The two halves of a step -/

namespace Resolving

variable {α β : Type}

/-- What a step gives in an arena. -/
def result (x : Resolving α) (arena : Arena) : Except Error α :=
  (x.run arena).1

/-- The arena after a step. -/
def after (x : Resolving α) (arena : Arena) : Arena :=
  (x.run arena).2

section Equations

variable (arena : Arena)

@[simp] theorem result_lift (e : Except Error α) : result (liftM e : Resolving α) arena = e := rfl

theorem result_get_bind (f : Arena → Resolving β) :
    result (get >>= f) arena = result (f arena) arena := rfl

theorem after_get_bind (f : Arena → Resolving β) :
    after (get >>= f) arena = after (f arena) arena := rfl

end Equations

/-- A step that succeeds hands its value and its arena on. -/
theorem bind_of_ok {x : Resolving α} {f : α → Resolving β} {arena : Arena} {a : α}
    (h : result x arena = .ok a) :
    result (x >>= f) arena = result (f a) (after x arena) ∧
      after (x >>= f) arena = after (f a) (after x arena) := by
  -- both halves come from the one run of the first step
  unfold result after at *
  simp only [bind, ExceptT.bind, ExceptT.run, ExceptT.mk, StateT.bind] at *
  rcases hx : x arena with ⟨r, arena'⟩
  rw [hx] at h
  subst h
  exact ⟨rfl, rfl⟩

/-- A step that fails ends everything that follows it. -/
theorem bind_of_error {x : Resolving α} {f : α → Resolving β} {arena : Arena} {e : Error}
    (h : result x arena = .error e) :
    result (x >>= f) arena = .error e ∧ after (x >>= f) arena = after x arena := by
  -- the run of the first step is that of the sequence
  unfold result after at *
  simp only [bind, ExceptT.bind, ExceptT.run, ExceptT.mk, StateT.bind] at *
  rcases hx : x arena with ⟨r, arena'⟩
  rw [hx] at h
  subst h
  exact ⟨rfl, rfl⟩

/-! ### What a step gives -/

/-- A sequence of two steps succeeds through an intermediate value. -/
theorem exists_of_bind_eq_ok {x : Resolving α} {f : α → Resolving β} {arena : Arena} {b : β}
    (h : result (x >>= f) arena = .ok b) :
    ∃ a, result x arena = .ok a ∧ result (f a) (after x arena) = .ok b ∧
      after (x >>= f) arena = after (f a) (after x arena) := by
  cases h_x : result x arena with
  | ok a =>
    obtain ⟨h_result, h_after⟩ := bind_of_ok (f := f) h_x
    exact ⟨a, rfl, h_result ▸ h, h_after⟩
  | error e =>
    rw [(bind_of_error h_x).1] at h
    cases h

/-- What a step gives has a property in the arena after it. -/
def Yields (x : Resolving α) (P : Arena → α → Prop) : Prop :=
  ∀ arena a, result x arena = .ok a → P (after x arena) a

/-- The last step decides. -/
theorem Yields.bind {x : Resolving α} {f : α → Resolving β} {P : Arena → β → Prop}
    (h_f : ∀ a, Yields (f a) P) : Yields (x >>= f) P := by
  intro arena b h
  -- the sequence succeeds only if the first step did
  obtain ⟨a, -, h_b, h_after⟩ := exists_of_bind_eq_ok h
  rw [h_after]
  exact h_f a _ b h_b

theorem find?_insert_self (c : ResolvedClass) :
    Yields (insert c) fun arena id => arena.find? c.key = some id := by
  intro arena id h
  cases h
  exact Arena.find?_eq_some_iff.mpr (arena.class?_insert_self c)

theorem create_key (m : Metadata) (index : Nat) (row : TypeDefinition)
    (declaring : Option ClassId) :
    Yields (create m index row declaring) fun arena id =>
      arena.find? (.ofDefinition index) = some id :=
  Yields.bind fun _ => .bind fun _ => .bind fun _ => .bind fun _ => .bind fun _ =>
    find?_insert_self _

/-- The class of a definition stands under the key of the definition. -/
theorem definitionWithin_key (m : Metadata) (links index : Nat) :
    Yields (definitionWithin m links index) fun arena id =>
      arena.find? (.ofDefinition index) = some id := by
  intro arena id h
  -- only the last link differs: it creates nothing
  cases links with
  | zero =>
    rw [definitionWithin, result_get_bind] at h
    rw [definitionWithin, after_get_bind]
    split at h
    next found h_found =>
      cases h
      exact h_found
    next => cases h
  | succ links =>
    rw [definitionWithin, result_get_bind] at h
    rw [definitionWithin, after_get_bind]
    split at h
    next found h_found =>
      cases h
      exact h_found
    next h_new =>
      exact Yields.bind (fun row => .bind fun declaring => create_key m index row declaring) _ _ h

/-- A class that is there is found, and nothing is created. -/
theorem definitionWithin_found {m : Metadata} {arena : Arena} (links : Nat) {index : Nat}
    {id : ClassId} (h_found : arena.find? (.ofDefinition index) = some id) :
    result (definitionWithin m links index) arena = .ok id ∧
      after (definitionWithin m links index) arena = arena := by
  cases links <;> rw [definitionWithin, result_get_bind, after_get_bind, h_found] <;>
    exact ⟨rfl, rfl⟩

end Resolving

/-! ### Changes -/

/-- The arguments of a key are the own parameters of a class. -/
def ResolvedClass.Owns (c : ResolvedClass) (key : ClassKey) : Prop :=
  key.methodArgs = [] ∧ c.genericArgs = key.classArgs

/-- The class that an instantiation gets: that of its definition, but for the arguments and the
depth. -/
def ResolvedClass.instantiated (c : ResolvedClass) (key : ClassKey) (depth : Nat) : ResolvedClass :=
  { c with key := key, genericArgs := key.classArgs, depth := depth, members := none }

namespace Arena

/-- A key that a run gives a class of its own: it is not too deep, and its arguments are not the own
parameters of its definition. -/
def Admits (maxDepth : Nat) (arena : Arena) (key : ClassKey) : Prop :=
  arena.keyDepth key ≤ maxDepth ∧ ∀ base c,
    arena.find? (.ofDefinition key.definition) = some base → arena.class? base = some c →
      ¬ c.Owns key

/-- One change of the arena; `Allowed` tells which keys may get a class of their own. -/
inductive Change (Allowed : Arena → ClassKey → Prop) (arena : Arena) : Arena → Prop
  /-- A type is interned. -/
  | intern (type : ResolvedType) : Change Allowed arena (arena.intern type).2
  /-- The class of a definition is created. -/
  | definition {c : ResolvedClass} (plain : c.key = .ofDefinition c.definition)
      (bare : c.members = none) : Change Allowed arena (arena.insert c).2
  /-- The class of an instantiation is created, after that of its definition. -/
  | instantiation {key : ClassKey} {base : ClassId} {c : ResolvedClass}
      (found : arena.find? (.ofDefinition key.definition) = some base)
      (at_base : arena.class? base = some c) (allowed : Allowed arena key) :
      Change Allowed arena (arena.insert (c.instantiated key (arena.keyDepth key))).2
  /-- An instantiation is cut off. -/
  | truncate : Change Allowed arena arena.truncate
  /-- The members of a class are published. -/
  | publish (id : ClassId) (members : Members) : Change Allowed arena (arena.publish id members)

/-- Any number of changes. -/
abbrev Becomes (Allowed : Arena → ClassKey → Prop) : Arena → Arena → Prop :=
  ReflTransGen (Change Allowed)

variable {Allowed : Arena → ClassKey → Prop} {arena arena' : Arena}

/-- **Invariants.** What every change keeps is kept by all of them. -/
theorem Becomes.keeps {P : Arena → Prop}
    (h_change : ∀ arena arena', Change Allowed arena arena' → P arena → P arena')
    (h : Becomes Allowed arena arena') (h_P : P arena) : P arena' := by
  induction h with
  | refl => exact h_P
  | tail _ h_last ih => exact h_change _ _ h_last ih

end Arena

/-! ### Steps -/

namespace Resolving

variable {α β : Type} {Allowed : Arena → ClassKey → Prop}

/-- A step that does nothing but change the arena in these ways, also when it fails. -/
def Changes (Allowed : Arena → ClassKey → Prop) (x : Resolving α) : Prop :=
  ∀ arena, Arena.Becomes Allowed arena (after x arena)

/-- **Invariants.** What every change keeps is kept by a step. -/
theorem Changes.keeps {x : Resolving α} (h : Changes Allowed x) {P : Arena → Prop}
    (h_change : ∀ arena arena', Arena.Change Allowed arena arena' → P arena → P arena')
    {arena : Arena} (h_P : P arena) : P (after x arena) :=
  (h arena).keeps h_change h_P

section Rules

theorem changes_pure (a : α) : Changes Allowed (pure a) :=
  fun _ => .refl

theorem changes_throw (e : Error) : Changes Allowed (throw e : Resolving α) :=
  fun _ => .refl

theorem changes_lift (e : Except Error α) : Changes Allowed (liftM e : Resolving α) :=
  fun _ => .refl

theorem changes_get : Changes Allowed get :=
  fun _ => .refl

theorem changes_intern (type : ResolvedType) : Changes Allowed (intern type) :=
  fun _ => .single (.intern type)

/-- What the first step does to the arena stays, also when it fails. -/
theorem Changes.bind {x : Resolving α} {f : α → Resolving β} (h_x : Changes Allowed x)
    (h_f : ∀ a, Changes Allowed (f a)) : Changes Allowed (x >>= f) := by
  intro arena
  cases h : result x arena with
  | ok a =>
    rw [(bind_of_ok h).2]
    exact (h_x arena).trans (h_f a _)
  | error e =>
    rw [(bind_of_error h).2]
    exact h_x arena

theorem Changes.map {x : Resolving α} (h_x : Changes Allowed x) (f : α → β) :
    Changes Allowed (f <$> x) := by
  rw [map_eq_pure_bind]
  exact h_x.bind fun _ => changes_pure _

theorem changes_mapM {f : α → Resolving β} (h_f : ∀ a, Changes Allowed (f a)) (as : List α) :
    Changes Allowed (as.mapM f) := by
  induction as with
  | nil => exact changes_pure []
  | cons a as ih =>
    rw [List.mapM_cons]
    exact (h_f a).bind fun _ => ih.bind fun _ => changes_pure _

end Rules

/-! ### Creating classes -/

section Creation

variable (m : Metadata)

theorem changes_openParameter (row : GenericParameter) (ofMethod : Bool) :
    Changes Allowed (openParameter m row ofMethod) :=
  (changes_lift _).bind fun _ => changes_intern _

theorem changes_declaringClass {resolve : Nat → Resolving ClassId}
    (h_resolve : ∀ outer, Changes Allowed (resolve outer)) (row : TypeDefinition) :
    Changes Allowed (declaringClass m resolve row) := by
  unfold declaringClass
  split
  · exact changes_pure _
  · exact (changes_lift _).bind fun _ => (changes_lift _).bind fun outer => (h_resolve outer).map _

theorem changes_create (index : Nat) (row : TypeDefinition) (declaring : Option ClassId) :
    Changes Allowed (create m index row declaring) := by
  refine (changes_lift _).bind fun name => changes_get.bind fun arena => ?_
  refine (changes_lift _).bind fun _ => (changes_lift _).bind fun parameters => ?_
  refine Changes.bind ?_ fun _ => ?_
  -- all but the parameters and the class itself is read
  · exact changes_mapM (fun parameter => changes_openParameter m parameter false) parameters
  · exact fun _ => .single (.definition rfl rfl)

theorem changes_definitionWithin (links index : Nat) :
    Changes Allowed (definitionWithin m links index) := by
  induction links generalizing index with
  | zero =>
    refine changes_get.bind fun arena => ?_
    split
    · exact changes_pure _
    · exact changes_throw _
  | succ links ih =>
    refine changes_get.bind fun arena => ?_
    -- a class that is there is not created again
    split
    · exact changes_pure _
    · exact (changes_lift _).bind fun row =>
        (changes_declaringClass m ih row).bind fun declaring => changes_create m index row declaring

theorem changes_definition (index : Nat) : Changes Allowed (definition m index) :=
  changes_definitionWithin m _ index

/-- The class of a key is created in an arena in which the class of its definition is there; the key
has to be allowed in that arena. -/
theorem becomes_classOf {key : ClassKey} {arena : Arena}
    (h_allowed : key.isInstantiation = true → arena.find? key = none →
      Allowed (after (definition m key.definition) arena) key) :
    Arena.Becomes Allowed arena (after (classOf m key) arena) := by
  unfold classOf
  split
  next h_inst =>
    rw [after_get_bind]
    split
    · exact .refl
    next h_new =>
      have h_definition : Arena.Becomes Allowed arena (after (definition m key.definition) arena) :=
        changes_definition m key.definition arena
      cases h_base : result (definition m key.definition) arena with
      | error e =>
        rw [(bind_of_error h_base).2]
        exact h_definition
      | ok base =>
        rw [(bind_of_ok h_base).2, after_get_bind]
        have h_found := definitionWithin_key m _ _ arena base h_base
        obtain ⟨c, h_c, -⟩ := Arena.find?_eq_some_iff.mp h_found
        refine h_definition.trans (.single ?_)
        rw [show (after (definition m key.definition) arena).class? base = some c from h_c]
        exact .instantiation h_found h_c (h_allowed h_inst h_new)
  · exact changes_definition m key.definition arena

theorem changes_classOf (key : ClassKey) : Changes (fun _ _ => True) (classOf m key) :=
  fun _ => becomes_classOf m fun _ _ => trivial

end Creation

/-! ### Following references -/

section Reference

variable (m : Metadata) (maxDepth : Nat) (scope : GenericScope)

theorem changes_classType (id : ClassId) : Changes Allowed (classType id) :=
  changes_intern _

theorem changes_parameter (index : Nat) (ofMethod : Bool) :
    Changes Allowed (parameter m scope index ofMethod) := by
  refine (changes_lift _).bind fun row => ?_
  split
  · exact changes_pure _
  · exact changes_openParameter m row ofMethod

theorem changes_arguments {resolve : Nat → Resolving TypeId}
    (h_resolve : ∀ va, Changes Allowed (resolve va)) (address : Nat) :
    Changes Allowed (arguments m resolve address) := by
  unfold arguments
  split
  · exact changes_pure _
  · exact (changes_lift _).bind fun _ => (changes_lift _).bind fun addresses =>
      changes_mapM h_resolve addresses

/-- Own parameters are recognized by the arguments of the class of the definition. -/
theorem isOpen_eq_true_iff {arena : Arena} {key : ClassKey} {base : ClassId} {c : ResolvedClass}
    (h_c : arena.class? base = some c) :
    (key.methodArgs.isEmpty && (arena.class? base).any (·.genericArgs = key.classArgs)) = true ↔
      c.Owns key := by
  rw [h_c, Option.any_some, Bool.and_eq_true, List.isEmpty_iff, decide_eq_true_iff]
  rfl

/-- What becomes of an instantiation once its definition has a class. -/
def settle (m : Metadata) (maxDepth : Nat) (key : ClassKey) (base : ClassId) :
    Resolving TypeId := do
  let arena ← get
  let isOpen :=
    key.methodArgs.isEmpty && (arena.class? base).any (·.genericArgs = key.classArgs)
  if isOpen then
    classType base
  else if maxDepth < arena.keyDepth key then
    modify (·.truncate)
    classType base
  else
    classType (← classOf m key)

theorem instantiate_eq (m : Metadata) (maxDepth : Nat) (key : ClassKey) :
    instantiate m maxDepth key = definition m key.definition >>= settle m maxDepth key := rfl

/-- A class is asked for where the key was found neither own nor too deep. -/
theorem becomes_settle {key : ClassKey} {base : ClassId} {arena : Arena}
    (h_found : arena.find? (.ofDefinition key.definition) = some base) :
    Arena.Becomes (Arena.Admits maxDepth) arena (after (settle m maxDepth key base) arena) := by
  unfold settle
  rw [after_get_bind]
  dsimp only
  split
  · exact changes_classType base arena
  next h_open =>
    split
    · exact .head .truncate (changes_classType base _)
    next h_deep =>
      have h_admits : arena.Admits maxDepth key := by
        refine ⟨Nat.le_of_not_lt h_deep, fun base' c h_found' h_c h_owns => h_open ?_⟩
        cases h_found.symm.trans h_found'
        exact (isOpen_eq_true_iff h_c).mpr h_owns
      have h_class : Arena.Becomes (Arena.Admits maxDepth) arena (after (classOf m key) arena) := by
        -- the definition is found again, and the arena is still the same
        refine becomes_classOf m fun _ _ => ?_
        rw [definition, (definitionWithin_found _ h_found).2]
        exact h_admits
      cases h_id : result (classOf m key) arena with
      | error e =>
        rw [(bind_of_error h_id).2]
        exact h_class
      | ok id =>
        rw [(bind_of_ok h_id).2]
        exact h_class.trans (changes_classType id _)

theorem changes_instantiate (key : ClassKey) :
    Changes (Arena.Admits maxDepth) (instantiate m maxDepth key) := by
  intro arena
  have h_definition : Arena.Becomes (Arena.Admits maxDepth) arena
      (after (definition m key.definition) arena) := changes_definition m key.definition arena
  rw [instantiate_eq]
  cases h_base : result (definition m key.definition) arena with
  | error e =>
    rw [(bind_of_error h_base).2]
    exact h_definition
  | ok base =>
    rw [(bind_of_ok h_base).2]
    exact h_definition.trans (becomes_settle m maxDepth (definitionWithin_key m _ _ _ _ h_base))

theorem changes_instantiation {resolve : Nat → Resolving TypeId}
    (h_resolve : ∀ va, Changes (Arena.Admits maxDepth) (resolve va)) (address : Nat) :
    Changes (Arena.Admits maxDepth) (instantiation m maxDepth resolve address) :=
  (changes_lift _).bind fun generic => (changes_lift _).bind fun _ =>
    (changes_arguments m h_resolve generic.classInst).bind fun _ =>
      (changes_arguments m h_resolve generic.methodInst).bind fun _ =>
        changes_instantiate m maxDepth _

theorem changes_payload {resolve : Nat → Resolving TypeId}
    (h_resolve : ∀ va, Changes (Arena.Admits maxDepth) (resolve va)) (d : Descriptor) :
    Changes (Arena.Admits maxDepth) (payload m maxDepth scope resolve d) := by
  unfold payload
  split
  · exact changes_intern _
  · split
    · exact changes_intern _
    · exact (changes_definition m _).bind fun id => changes_classType id
    · refine (h_resolve _).bind fun element => ?_
      split <;> exact changes_intern _
    · exact (changes_lift _).bind fun shape => (h_resolve _).bind fun _ => changes_intern _
    · exact changes_parameter m scope _ _
    · exact changes_instantiation m maxDepth h_resolve _

theorem changes_atAddress {resolve : Descriptor → Resolving TypeId}
    (h_resolve : ∀ d, Changes Allowed (resolve d)) (address : Nat) :
    Changes Allowed (atAddress m resolve address) :=
  (changes_lift _).bind h_resolve

theorem changes_descriptorWithin (levels : Nat) (d : Descriptor) :
    Changes (Arena.Admits maxDepth) (descriptorWithin m maxDepth scope levels d) := by
  induction levels generalizing d with
  | zero => exact changes_throw _
  | succ levels ih =>
    refine (changes_payload m maxDepth scope (changes_atAddress m ih) d).bind fun type => ?_
    split
    · exact changes_intern _
    · exact changes_pure _

theorem changes_descriptor (d : Descriptor) :
    Changes (Arena.Admits maxDepth) (descriptor m maxDepth scope d) :=
  changes_descriptorWithin m maxDepth scope _ d

theorem changes_typeIndex (index : Nat) :
    Changes (Arena.Admits maxDepth) (typeIndex m maxDepth scope index) :=
  (changes_lift _).bind (changes_descriptor m maxDepth scope)

theorem changes_type (source : TypeSource) :
    Changes (Arena.Admits maxDepth) (type m maxDepth scope source) := by
  cases source with
  | index position => exact changes_typeIndex m maxDepth scope position
  | address va => exact (changes_lift _).bind (changes_descriptor m maxDepth scope)
  | definition row => exact (changes_definition m row).bind changes_classType

theorem changes_listed (address : Nat) :
    Changes (Arena.Admits maxDepth) (listed m maxDepth address) :=
  changes_instantiation m maxDepth
    (changes_atAddress m (changes_descriptorWithin m maxDepth .empty nestingLimit)) address

end Reference

/-! ### Completing classes -/

section Completion

variable (m : Metadata) (maxDepth : Nat) (scope : GenericScope) (owner : ClassId)

theorem changes_field (row : FieldDefinition) :
    Changes (Arena.Admits maxDepth) (field m maxDepth scope owner row) := by
  refine (changes_lift _).bind fun name => ?_
  split
  · exact (changes_lift _).bind fun d => (changes_descriptor m maxDepth scope d).bind fun _ =>
      changes_pure _
  · exact changes_throw _

theorem changes_fields (row : TypeDefinition) :
    Changes (Arena.Admits maxDepth) (fields m maxDepth scope owner row) :=
  (changes_lift _).bind fun rows =>
    (changes_mapM (changes_field m maxDepth scope owner) rows).bind fun _ => changes_pure _

theorem changes_methodParameter (row : ParameterDefinition) :
    Changes (Arena.Admits maxDepth) (methodParameter m maxDepth scope row) := by
  refine (changes_lift _).bind fun name => ?_
  split
  · exact (changes_typeIndex m maxDepth scope _).bind fun _ => changes_pure _
  · exact changes_throw _

theorem changes_parameters (row : MethodDefinition) :
    Changes (Arena.Admits maxDepth) (parameters m maxDepth scope row) :=
  (changes_lift _).bind (changes_mapM (changes_methodParameter m maxDepth scope))

theorem changes_returnType (index : Option Nat) :
    Changes (Arena.Admits maxDepth) (returnType m maxDepth scope index) := by
  cases index with
  | none => exact changes_intern _
  | some index => exact changes_typeIndex m maxDepth scope index

theorem changes_method (c : ResolvedClass) (row : MethodDefinition) :
    Changes (Arena.Admits maxDepth) (method m maxDepth scope owner c row) :=
  (changes_lift _).bind fun _ => (changes_returnType m maxDepth scope _).bind fun _ =>
    (changes_parameters m maxDepth scope row).bind fun _ => changes_get.bind fun _ =>
      changes_pure _

theorem changes_methods (c : ResolvedClass) (row : TypeDefinition) :
    Changes (Arena.Admits maxDepth) (methods m maxDepth scope owner c row) :=
  (changes_lift _).bind fun rows =>
    (changes_mapM (changes_method m maxDepth scope owner c) rows).bind fun _ => changes_pure _

theorem changes_nestedClass (index : Nat) (entry : Int) :
    Changes Allowed (nestedClass m owner index entry) := by
  unfold nestedClass
  split
  · refine (changes_definition m _).bind fun id => changes_get.bind fun arena => ?_
    split
    · exact changes_pure _
    · exact changes_throw _
  · exact changes_throw _

theorem changes_nested (c : ResolvedClass) (row : TypeDefinition) :
    Changes Allowed (nested m owner c row) := by
  unfold nested
  split
  · exact changes_pure _
  · exact (changes_lift _).bind (changes_mapM (changes_nestedClass m owner c.definition))

theorem changes_underlying (c : ResolvedClass) (row : TypeDefinition) :
    Changes (Arena.Admits maxDepth) (underlying m maxDepth scope c row) := by
  unfold underlying
  split
  · split
    · exact (changes_typeIndex m maxDepth scope _).map _
    · exact changes_pure _
  · exact changes_pure _

theorem changes_members (c : ResolvedClass) :
    Changes (Arena.Admits maxDepth) (members m maxDepth owner c) :=
  (changes_lift _).bind fun row => (changes_underlying m maxDepth _ c row).bind fun _ =>
    (changes_fields m maxDepth _ owner row).bind fun _ =>
      (changes_methods m maxDepth _ owner c row).bind fun _ =>
        (changes_nested m owner c row).bind fun _ => changes_pure _

theorem changes_complete : Changes (Arena.Admits maxDepth) (complete m maxDepth owner) := by
  refine changes_get.bind fun arena => ?_
  split
  · exact changes_throw _
  · exact (changes_members m maxDepth owner _).bind fun members => fun _ =>
      .single (.publish owner members)

end Completion

end Resolving

end GlobalMetadata
