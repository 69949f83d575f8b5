import GlobalMetadata.Proofs.Change
import Mathlib.Order.Defs.PartialOrder

/-!
# Growth of the arena

A step of resolution may fail, and what it created before it failed stays. Whatever a step does, it
only adds: every type and every class keeps its id, a class keeps all that was fixed when it was
created, and members that are published stay published. This is the preorder `arena ≤ arena'`, and
`Grows step` says that a step never leads anywhere else.

* `Arena.Extends` is what the preorder says;
* `Arena.Change.le`: every change that a step can make adds, and so does every step
  (`Resolving.Changes.grows`);
* `Resolver.le_seed`, `Resolver.le_seedListed` and `Resolver.le_completeClass` say the same of the
  three kinds of visits that a run makes, and `Resolver.foldl_induction` takes what each of them
  keeps to a list of visits.

No lemma here asks that the ids in play were handed out before: growth holds of forged ids as well.
-/

namespace GlobalMetadata

/-! ### The preorder -/

/-- `c'` is what `c` has become: all that was fixed at creation is the same, and published members
stay published. -/
structure ResolvedClass.GrowsTo (c c' : ResolvedClass) : Prop where
  /-- Nothing but the members may differ. -/
  shell : c' = { c with members := c'.members }
  /-- Members are published once. -/
  members : ∀ members, c.members = some members → c'.members = some members

theorem ResolvedClass.GrowsTo.refl (c : ResolvedClass) : c.GrowsTo c :=
  ⟨rfl, fun _ h => h⟩

theorem ResolvedClass.GrowsTo.trans {a b c : ResolvedClass} (h : a.GrowsTo b) (h' : b.GrowsTo c) :
    a.GrowsTo c := by
  refine ⟨?_, fun members h_a => h'.members members (h.members members h_a)⟩
  -- the shells compose, since neither mentions the members in between
  have h_c := h'.shell
  rw [h.shell] at h_c
  exact h_c

/-- A class that has none gets members. -/
theorem ResolvedClass.members_publish_of_none {c : ResolvedClass} (h : c.members = none)
    (members : Members) : (c.publish members).members = some members := by
  rw [publish, h]
  rfl

/-- A class keeps the members that it has. -/
theorem ResolvedClass.members_publish_of_some {c : ResolvedClass} {old : Members}
    (h : c.members = some old) (members : Members) : (c.publish members).members = some old := by
  rw [publish, h]
  rfl

theorem ResolvedClass.growsTo_publish (c : ResolvedClass) (members : Members) :
    c.GrowsTo (c.publish members) :=
  ⟨rfl, fun _ h => members_publish_of_some h members⟩

theorem ResolvedClass.GrowsTo.key_eq {c c' : ResolvedClass} (h : c.GrowsTo c') :
    c'.key = c.key := by
  rw [h.shell]

namespace Arena

/-- `arena'` holds everything that `arena` holds, under the same ids. -/
structure Extends (arena arena' : Arena) : Prop where
  /-- A type keeps its id. -/
  types : ∀ id type, arena.type? id = some type → arena'.type? id = some type
  /-- A class keeps its id. -/
  classes : ∀ id c, arena.class? id = some c → ∃ c', arena'.class? id = some c' ∧ c.GrowsTo c'
  /-- What was cut off stays counted. -/
  truncated : arena.truncated ≤ arena'.truncated

instance : Preorder Arena where
  le := Extends
  le_refl _ := ⟨fun _ _ h => h, fun _ c h => ⟨c, h, .refl c⟩, Nat.le_refl _⟩
  le_trans _ _ _ h h' := by
    refine ⟨fun id type h_id => h'.types id type (h.types id type h_id), ?_,
      Nat.le_trans h.truncated h'.truncated⟩
    intro id c h_id
    obtain ⟨c', h_id', h_c⟩ := h.classes id c h_id
    obtain ⟨c'', h_id'', h_c'⟩ := h'.classes id c' h_id'
    exact ⟨c'', h_id'', h_c.trans h_c'⟩

variable {arena arena' : Arena}

theorem type?_mono (h : arena ≤ arena') {id : TypeId} {type : ResolvedType}
    (h_id : arena.type? id = some type) : arena'.type? id = some type :=
  h.types id type h_id

theorem class?_mono (h : arena ≤ arena') {id : ClassId} {c : ResolvedClass}
    (h_id : arena.class? id = some c) : ∃ c', arena'.class? id = some c' ∧ c.GrowsTo c' :=
  h.classes id c h_id

/-- A key keeps its class. -/
theorem find?_mono (h : arena ≤ arena') {key : ClassKey} {id : ClassId}
    (h_key : arena.find? key = some id) : arena'.find? key = some id := by
  obtain ⟨c, h_id, rfl⟩ := find?_eq_some_iff.mp h_key
  obtain ⟨c', h_id', h_c⟩ := class?_mono h h_id
  exact find?_eq_some_iff.mpr ⟨c', h_id', h_c.key_eq⟩

theorem le_intern (arena : Arena) (type : ResolvedType) : arena ≤ (arena.intern type).2 :=
  ⟨fun _ _ h => type?_intern_of_type? h, fun _ c h => ⟨c, h, .refl c⟩, Nat.le_refl _⟩

theorem le_insert (arena : Arena) (c : ResolvedClass) : arena ≤ (arena.insert c).2 :=
  ⟨fun _ _ h => h, fun _ c' h => ⟨c', class?_insert_of_class? h c, .refl c'⟩, Nat.le_refl _⟩

theorem le_truncate (arena : Arena) : arena ≤ arena.truncate :=
  ⟨fun _ _ h => h, fun _ c h => ⟨c, h, .refl c⟩, Nat.le_succ _⟩

theorem le_publish (arena : Arena) (owner : ClassId) (members : Members) :
    arena ≤ arena.publish owner members := by
  refine ⟨fun _ _ h => h, fun id c h => ?_, Nat.le_refl _⟩
  rw [class?_publish, h]
  -- only the owner changes
  by_cases h_owner : owner = id
  · rw [if_pos h_owner]
    exact ⟨_, rfl, c.growsTo_publish members⟩
  · rw [if_neg h_owner]
    exact ⟨c, rfl, .refl c⟩

/-- **Every change adds.** -/
theorem Change.le {Allowed : Arena → ClassKey → Prop} (h : Change Allowed arena arena') :
    arena ≤ arena' := by
  cases h with
  | intern type => exact arena.le_intern type
  | definition _ _ => exact arena.le_insert _
  | instantiation _ _ _ => exact arena.le_insert _
  | truncate => exact arena.le_truncate
  | publish id members => exact arena.le_publish id members

theorem Becomes.le {Allowed : Arena → ClassKey → Prop} (h : Becomes Allowed arena arena') :
    arena ≤ arena' :=
  h.keeps (P := (arena ≤ ·)) (fun _ _ h_change h_le => le_trans h_le h_change.le) (le_refl _)

end Arena

/-! ### Steps that only add -/

namespace Resolving

variable {α β : Type}

/-- A step that leads from every arena to one that extends it, also when it fails. -/
def Grows (x : Resolving α) : Prop :=
  ∀ arena, arena ≤ after x arena

/-- **Every step adds.** -/
theorem Changes.grows {Allowed : Arena → ClassKey → Prop} {x : Resolving α}
    (h : Changes Allowed x) : Grows x :=
  fun arena => (h arena).le

theorem grows_pure (a : α) : Grows (pure a) :=
  fun _ => le_refl _

theorem grows_throw (e : Error) : Grows (throw e : Resolving α) :=
  fun _ => le_refl _

theorem grows_lift (e : Except Error α) : Grows (liftM e : Resolving α) :=
  fun _ => le_refl _

theorem grows_get : Grows get :=
  fun _ => le_refl _

theorem grows_intern (type : ResolvedType) : Grows (intern type) :=
  fun arena => arena.le_intern type

theorem Grows.bind {x : Resolving α} {f : α → Resolving β} (h_x : Grows x)
    (h_f : ∀ a, Grows (f a)) : Grows (x >>= f) := by
  intro arena
  -- what the first step added stays, also when it fails
  cases h : result x arena with
  | ok a =>
    rw [(bind_of_ok h).2]
    exact le_trans (h_x arena) (h_f a _)
  | error e =>
    rw [(bind_of_error h).2]
    exact h_x arena

section Steps

variable (m : Metadata) (maxDepth : Nat) (scope : GenericScope) (owner : ClassId)

theorem grows_definition (index : Nat) : Grows (definition m index) :=
  (changes_definition m index : Changes (fun _ _ => True) _).grows

theorem grows_classOf (key : ClassKey) : Grows (classOf m key) :=
  (changes_classOf m key).grows

theorem grows_classType (id : ClassId) : Grows (classType id) :=
  grows_intern _

theorem grows_parameter (index : Nat) (ofMethod : Bool) :
    Grows (parameter m scope index ofMethod) :=
  (changes_parameter m scope index ofMethod : Changes (fun _ _ => True) _).grows

theorem grows_type (source : TypeSource) : Grows (type m maxDepth scope source) :=
  (changes_type m maxDepth scope source).grows

theorem grows_listed (address : Nat) : Grows (listed m maxDepth address) :=
  (changes_listed m maxDepth address).grows

theorem grows_nested (c : ResolvedClass) (row : TypeDefinition) :
    Grows (nested m owner c row) :=
  (changes_nested m owner c row : Changes (fun _ _ => True) _).grows

theorem grows_members (c : ResolvedClass) : Grows (members m maxDepth owner c) :=
  (changes_members m maxDepth owner c).grows

theorem grows_complete : Grows (complete m maxDepth owner) :=
  (changes_complete m maxDepth owner).grows

end Steps

end Resolving

/-! ### Whole runs -/

namespace Resolver

variable {α : Type}

theorem perform_arena (resolver : Resolver) (step : Resolving α) :
    (resolver.perform step).2.arena = Resolving.after step resolver.arena := rfl

theorem perform_result (resolver : Resolver) (step : Resolving α) :
    (resolver.perform step).1 = Resolving.result step resolver.arena := rfl

/-- The arena does not show whether a failure was written down. -/
theorem attempt_arena (resolver : Resolver) (step : Resolving α) (site : FailureSite)
    (describe : Arena → Option Nat × String) :
    (resolver.attempt step site describe).arena = Resolving.after step resolver.arena := by
  rw [attempt, ← perform_arena]
  split
  next _ next_resolver h => rw [h]
  next _ next_resolver h => rw [h]

variable (m : Metadata) (config : Config)

theorem le_seed (resolver : Resolver) (index : Nat) :
    resolver.arena ≤ (seed m resolver index).arena := by
  rw [seed, attempt_arena]
  exact Resolving.grows_definition m index resolver.arena

theorem le_seedListed (maxDepth : Nat) (resolver : Resolver) (entry : Nat × Nat) :
    resolver.arena ≤ (seedListed m maxDepth resolver entry).arena := by
  rw [seedListed, attempt_arena]
  exact Resolving.grows_listed m maxDepth _ resolver.arena

theorem le_completeClass (maxDepth : Nat) (resolver : Resolver) (index : Nat) :
    resolver.arena ≤ (completeClass m maxDepth resolver index).arena := by
  rw [completeClass, attempt_arena]
  exact Resolving.grows_complete m maxDepth ⟨index⟩ resolver.arena

/-- A list of steps keeps what each of them keeps. -/
theorem foldl_induction {P : Resolver → Prop} {step : Resolver → α → Resolver}
    (h_step : ∀ resolver a, P resolver → P (step resolver a)) (as : List α) {resolver : Resolver}
    (h : P resolver) : P (as.foldl step resolver) := by
  induction as generalizing resolver with
  | nil => exact h
  | cons a as ih => exact ih (h_step resolver a h)

/-- A list of steps adds if each of them does. -/
theorem le_foldl {step : Resolver → α → Resolver}
    (h_step : ∀ resolver a, resolver.arena ≤ (step resolver a).arena) (as : List α)
    (resolver : Resolver) : resolver.arena ≤ (as.foldl step resolver).arena := by
  refine foldl_induction (P := fun r => resolver.arena ≤ r.arena) (fun r a h_r => ?_) as (le_refl _)
  exact le_trans h_r (h_step r a)

end Resolver
end GlobalMetadata
