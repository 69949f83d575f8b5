import GlobalMetadata.Proofs.Nest
import GlobalMetadata.Proofs.Reachable

/-!
# The semantics of descriptors

`Metadata.denote` says what a descriptor stands for in a scope of terms: a recursion over the image,
in which generic parameters are replaced by the arguments in scope, an instantiation with exactly
the own parameters of its definition is the definition, and so is one that nests too deeply. There
is no state in it, nothing is shared and nothing is found again.

`Resolver.type_denotes` is the refinement: whatever a resolver has been through, an id that it gives
for a descriptor unfolds to what the descriptor denotes in the unfolded scope.

A recursion over an image has to be bounded, since descriptors may contain themselves. The bound
only says where to give up. `Metadata.denote_of_le` shows that a descriptor which denotes something
denotes the same with any larger bound, so that the refinement can be stated for all of them.
-/

namespace GlobalMetadata

/-! ### Bounds do not matter -/

namespace Meaning

variable {α β : Type}

/-- If the first one has a value, the second one is the same. -/
def Settles (x y : Meaning α) : Prop :=
  ∀ a, x.value = some a → y = x

theorem Settles.refl (x : Meaning α) : x.Settles x :=
  fun _ _ => rfl

theorem settles_nothing (y : Meaning α) : nothing.Settles y :=
  fun _ h => by cases h

theorem Settles.bind {x y : Meaning α} {f g : α → Meaning β} (h : x.Settles y)
    (h_f : ∀ a, (f a).Settles (g a)) : (x >>= f).Settles (y >>= g) := by
  intro b h_b
  -- the sequence has a value only if the first one does
  cases h_x : x.value with
  | none =>
    rw [bind_of_none h_x] at h_b
    cases h_b
  | some a =>
    rw [bind_of_value h_x] at h_b
    rw [h a h_x, bind_of_value h_x, bind_of_value h_x, h_f a b h_b]

theorem Settles.mapM {f g : α → Meaning β} (h_f : ∀ a, (f a).Settles (g a)) (as : List α) :
    (as.mapM f).Settles (as.mapM g) := by
  induction as with
  | nil => exact .refl _
  | cons a as ih =>
    rw [List.mapM_cons, List.mapM_cons]
    exact (h_f a).bind fun _ => ih.bind fun _ => .refl _

section Descriptors

variable (m : Metadata) (maxDepth : Nat) (scope : TermScope)
  {resolve resolve' : Nat → Meaning TypeTerm}

theorem arguments_settles (h : ∀ address, (resolve address).Settles (resolve' address))
    (address : Nat) : (arguments m resolve address).Settles (arguments m resolve' address) := by
  unfold arguments
  split
  · exact .refl _
  · exact (Settles.refl _).bind fun _ => (Settles.refl _).bind fun addresses => .mapM h addresses

theorem payload_settles (h : ∀ address, (resolve address).Settles (resolve' address))
    (d : Descriptor) :
    (payload m maxDepth scope resolve d).Settles (payload m maxDepth scope resolve' d) := by
  unfold payload
  split
  · exact .refl _
  cases d.payload with
  -- nothing is resolved here, or no other descriptor
  | none | definition row | parameter index => exact .refl _
  | element address => exact (h address).bind fun _ => .refl _
  | array address =>
    refine (Settles.refl _).bind fun shape => ?_
    exact (h shape.element).bind fun _ => .refl _
  | instantiation address =>
    refine (Settles.refl _).bind fun generic => (Settles.refl _).bind fun row => ?_
    refine (arguments_settles m h generic.classInst).bind fun classArgs => ?_
    exact (arguments_settles m h generic.methodInst).bind fun methodArgs => .refl _

theorem descriptorWithin_settles (levels : Nat) (d : Descriptor) :
    (descriptorWithin m maxDepth scope levels d).Settles
      (descriptorWithin m maxDepth scope (levels + 1) d) := by
  induction levels generalizing d with
  | zero => exact settles_nothing _
  | succ levels ih =>
    rw [descriptorWithin, descriptorWithin]
    refine (payload_settles m maxDepth scope (fun address => ?_) d).bind fun _ => .refl _
    exact (Settles.refl _).bind ih

end Descriptors

end Meaning

/-! ### Denotation -/

namespace Metadata

/-- **Denotation.** What a descriptor stands for in a scope of terms, if descriptors contain each
other less than `levels` deep. -/
def denote (m : Metadata) (maxDepth : Nat) (scope : TermScope) (levels : Nat) (d : Descriptor) :
    Option TypeTerm :=
  (Meaning.descriptorWithin m maxDepth scope levels d).value

/-- A larger bound gives the same. -/
theorem denote_of_le {m : Metadata} {maxDepth : Nat} {scope : TermScope} {levels levels' : Nat}
    (h_le : levels ≤ levels') {d : Descriptor} {t : TypeTerm}
    (h : m.denote maxDepth scope levels d = some t) :
    m.denote maxDepth scope levels' d = some t := by
  induction h_le with
  | refl => exact h
  | step _ ih =>
    -- there is a value already, which one level more does not change
    have h_same := Meaning.descriptorWithin_settles m maxDepth scope _ d t ih
    rw [denote, h_same]
    exact ih

end Metadata

/-! ### Refinement -/

namespace Arena

/-- The terms of a scope. -/
def scope? (arena : Arena) (scope : GenericScope) : Option TermScope := do
  return ⟨← scope.classArgs.mapM arena.term?, ← scope.methodArgs.mapM arena.term?⟩

theorem Sound.scope?_eq {m : Metadata} {arena : Arena} (h : arena.Sound m) {scope : GenericScope}
    {terms : TermScope} (h_scope : arena.UnfoldsScope terms scope) :
    arena.scope? scope = some terms := by
  rw [scope?, h.mapM_term?_eq h_scope.1, h.mapM_term?_eq h_scope.2]
  rfl

end Arena

namespace Resolving

/-- A type that is resolved from a descriptor unfolds to what the descriptor denotes. -/
theorem denote_of_descriptor {m : Metadata} {maxDepth : Nat} {arena : Arena} (h : arena.Sound m)
    {scope : GenericScope} {terms : TermScope} (h_scope : arena.UnfoldsScope terms scope)
    {d : Descriptor} {id : TypeId} (h_id : result (descriptor m maxDepth scope d) arena = .ok id)
    {levels : Nat} (h_levels : nestingLimit < levels) :
    ∃ t, (after (descriptor m maxDepth scope d) arena).term? id = some t ∧
      m.denote maxDepth terms levels d = some t := by
  have h_follows := descriptor_follows maxDepth h h_scope d
  obtain ⟨t, h_value, h_t⟩ := h_follows.value id h_id
  exact ⟨t, h_follows.sound.term?_eq_some_iff.mpr h_t, Metadata.denote_of_le h_levels h_value⟩

/-- The same for a descriptor that the tables or the image give. -/
theorem denote_of_read {m : Metadata} {maxDepth : Nat} {arena : Arena} (h : arena.Sound m)
    {scope : GenericScope} {terms : TermScope} (h_scope : arena.UnfoldsScope terms scope)
    {e : Except Error Descriptor} {id : TypeId} {arena' : Arena}
    (h_id : result (liftM e >>= descriptor m maxDepth scope) arena = .ok id)
    (h_after : arena' = after (liftM e >>= descriptor m maxDepth scope) arena)
    {levels : Nat} (h_levels : nestingLimit < levels) :
    ∃ d t, e = .ok d ∧ arena'.term? id = some t ∧ m.denote maxDepth terms levels d = some t := by
  cases e with
  | error error => cases h_id
  | ok d =>
    obtain ⟨t, h_term, h_denote⟩ := denote_of_descriptor h h_scope (d := d) h_id h_levels
    rw [h_after]
    exact ⟨d, t, rfl, h_term, h_denote⟩

end Resolving

namespace Resolver

variable {m : Metadata} {config : Config}

theorem of_perform_eq {α : Type} {resolver resolver' : Resolver} {step : Resolving α}
    {r : Except Error α} (h : resolver.perform step = (r, resolver')) :
    Resolving.result step resolver.arena = r ∧
      resolver'.arena = Resolving.after step resolver.arena := by
  rw [← resolver.perform_result, ← resolver.perform_arena, h]
  exact ⟨rfl, rfl⟩

/-- **Refinement.** In every reachable state, the ids of a scope that were handed out unfold to
terms; and an id that is resolved from a descriptor, be it given by itself, by its index or by its
address, unfolds in the new state to what the descriptor denotes in the scope of those terms. -/
theorem type_denotes {resolver : Resolver} (h : Reachable m config resolver) {scope : GenericScope}
    (h_scope : resolver.arena.HasScope scope) :
    ∃ terms, resolver.arena.scope? scope = some terms ∧
      ∀ levels, nestingLimit < levels →
        (∀ d id resolver',
          resolver.perform (Resolving.descriptor m config.maxGenericDepth scope d) =
            (.ok id, resolver') →
          ∃ t, resolver'.arena.term? id = some t ∧
            m.denote config.maxGenericDepth terms levels d = some t) ∧
        (∀ position id resolver',
          resolver.type m config (.index position) scope = (.ok id, resolver') →
          ∃ d t, m.descriptor position = .ok d ∧ resolver'.arena.term? id = some t ∧
            m.denote config.maxGenericDepth terms levels d = some t) ∧
        (∀ va id resolver',
          resolver.type m config (.address va) scope = (.ok id, resolver') →
          ∃ d t, m.registration.typeAt va = .ok d ∧ resolver'.arena.term? id = some t ∧
            m.denote config.maxGenericDepth terms levels d = some t) := by
  have h_sound := h.sound
  -- soundness is what gives every id a term
  obtain ⟨terms, h_terms⟩ := exists_unfoldsScope h_sound h_scope
  refine ⟨terms, h_sound.scope?_eq h_terms, fun levels h_levels => ⟨?_, ?_, ?_⟩⟩
  · -- a descriptor by itself
    intro d id resolver' h_type
    obtain ⟨h_id, h_after⟩ := of_perform_eq h_type
    rw [h_after]
    exact Resolving.denote_of_descriptor h_sound h_terms h_id h_levels
  · -- by its index
    intro position id resolver' h_type
    obtain ⟨h_id, h_after⟩ := of_perform_eq h_type
    exact Resolving.denote_of_read h_sound h_terms h_id h_after h_levels
  · -- by its address
    intro va id resolver' h_type
    obtain ⟨h_id, h_after⟩ := of_perform_eq h_type
    exact Resolving.denote_of_read h_sound h_terms h_id h_after h_levels

/-- A generic parameter in the scope of an integer: the argument is found and not made again. -/
theorem type_denotes_parameter :
    let m : Metadata := { Metadata.bare with genericParameters := #[⟨0, 0, 0, 0, 0, 0⟩] }
    let d : Descriptor := ⟨0, .var, 0, false, false, .parameter 0⟩
    let resolver := Resolver.empty.serve m .minimal (.intern (.primitive .i4))
    let step := resolver.perform (Resolving.descriptor m 4 ⟨[⟨0⟩], []⟩ d)
    step.1 = .ok ⟨0⟩ ∧ ∃ terms t, resolver.arena.scope? ⟨[⟨0⟩], []⟩ = some terms ∧
      step.2.arena.term? ⟨0⟩ = some t ∧ m.denote 4 terms (nestingLimit + 1) d = some t := by
  intro m d resolver step
  have h_step : step.1 = .ok ⟨0⟩ := rfl
  have h_reachable : Reachable m .minimal resolver := .serve _ .empty trivial
  have h_scope : resolver.arena.HasScope ⟨[⟨0⟩], []⟩ := by
    constructor
    · intro id h_id
      exact List.mem_singleton.mp h_id ▸ Nat.one_pos
    · intro id h_id
      exact absurd h_id List.not_mem_nil
  obtain ⟨terms, h_terms, h_denotes⟩ := type_denotes h_reachable h_scope
  obtain ⟨t, h_t, h_value⟩ :=
    (h_denotes (nestingLimit + 1) (Nat.lt_succ_self _)).1 d ⟨0⟩ step.2 (Prod.ext h_step rfl)
  exact ⟨h_step, terms, t, h_terms, h_t, h_value⟩

end Resolver

end GlobalMetadata
