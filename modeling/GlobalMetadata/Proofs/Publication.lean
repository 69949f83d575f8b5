import GlobalMetadata.Proofs.Termination

/-!
# Who publishes members

Steps of resolution add classes without members, and that is all they do to classes
(`Arena.AddsBare`). Members are published in one place only: when a class is completed, and then
they are what resolving the members of that class has given. `Resolving.complete_cases` says so for
one completion.

What follows are rules for members. `Arena.AllMembers P` says that `P` holds of all members that
were published, together with the class that they belong to. It is kept when bare classes are added,
and when members are published for which it holds. `Arena.Publishes P` is the case where the class
does not matter, and it holds of every state that a caller can see as soon as resolving members
never gives anything else (`Resolver.Reachable.publishes`).
-/

namespace GlobalMetadata

namespace Arena

/-- All published members satisfy `P`. -/
def Publishes (P : Members → Prop) (arena : Arena) : Prop :=
  ∀ id c members, arena.class? id = some c → c.members = some members → P members

/-- All published members satisfy `P`, which may tell by the class whose members they are. -/
def AllMembers (P : ClassId → ClassKey → Members → Prop) (arena : Arena) : Prop :=
  ∀ id c members, arena.class? id = some c → c.members = some members → P id c.key members

/-- From one arena to the other classes were only added, and without members. -/
structure AddsBare (arena arena' : Arena) : Prop where
  grows : arena ≤ arena'
  /-- Every class was there, or is new and has no members. -/
  frame : ∀ id c, arena'.class? id = some c →
    arena.class? id = some c ∨ ¬ arena.HasClass id ∧ c.members = none

variable {arena arena' : Arena} {P Q : ClassId → ClassKey → Members → Prop}

theorem AllMembers.imp (h : arena.AllMembers P)
    (h_imp : ∀ id key members, P id key members → Q id key members) : arena.AllMembers Q :=
  fun id c members h_c h_members => h_imp id c.key members (h id c members h_c h_members)

/-- **Bare classes** have no members of which anything would have to hold. -/
theorem AllMembers.addsBare (h : arena.AllMembers P) (h_bare : arena.AddsBare arena') :
    arena'.AllMembers P := by
  intro id c members h_c h_members
  rcases h_bare.frame id c h_c with h_old | ⟨-, h_none⟩
  · exact h id c members h_old h_members
  · rw [h_members] at h_none
    cases h_none

/-- **Publishing.** A class that has members keeps them, and otherwise it gets the new ones. -/
theorem AllMembers.publish (h : arena.AllMembers P) {id : ClassId} {c : ResolvedClass}
    (h_c : arena.class? id = some c) {members : Members} (h_new : P id c.key members) :
    (arena.publish id members).AllMembers P := by
  intro id' c' members' h_c' h_members'
  rw [class?_publish] at h_c'
  by_cases h_id : id = id'
  · subst h_id
    rw [if_pos rfl, h_c] at h_c'
    obtain rfl : c.publish members = c' := Option.some.inj h_c'
    cases h_old : c.members with
    | some old =>
      rw [c.members_publish_of_some h_old] at h_members'
      exact h id c members' h_c (h_old.trans h_members')
    | none =>
      rw [c.members_publish_of_none h_old] at h_members'
      cases h_members'
      exact h_new
  · rw [if_neg h_id] at h_c'
    exact h id' c' members' h_c' h_members'

theorem Publishes.addsBare {P : Members → Prop} (h : arena.Publishes P)
    (h_bare : arena.AddsBare arena') : arena'.Publishes P :=
  AllMembers.addsBare (P := fun _ _ => P) h h_bare

end Arena

namespace Resolving

/-- A step that follows a meaning adds bare classes. -/
theorem Follows.addsBare {β γ : Type} {m : Metadata} {arena : Arena} {x : Resolving β}
    {y : Meaning γ} {R : Arena → β → γ → Prop} (h : Follows m arena x y R) :
    arena.AddsBare (after x arena) where
  grows := h.grows
  frame := h.frame

section Completion

variable {m : Metadata} {arena : Arena} {maxDepth : Nat} {owner id : ClassId}
  {c c' : ResolvedClass}

/-- What resolving the members of a class adds to the other classes. -/
theorem class?_members (h : arena.Sound m) (h_c : arena.class? owner = some c)
    (h_c' : (after (members m maxDepth owner c) arena).class? id = some c') :
    arena.class? id = some c' ∨ ¬ arena.HasClass id ∧ c'.members = none := by
  obtain ⟨_, k, -, h_shows⟩ := h.classes owner c h_c
  exact (members_follows maxDepth h h_c h_shows.key).frame id c' h_c'

/-- The class at hand is still there, as it was, when its members are resolved. -/
theorem class?_members_self (h : arena.Sound m) (h_c : arena.class? owner = some c) :
    (after (members m maxDepth owner c) arena).class? owner = some c := by
  obtain ⟨c', h_c', -⟩ := Arena.class?_mono (grows_members m maxDepth owner c arena) h_c
  rcases class?_members h h_c h_c' with h_old | ⟨h_new, -⟩
  · rw [h_c', ← h_c, h_old]
  · exact absurd (Arena.hasClass_iff.mpr ⟨c, h_c⟩) h_new

/-- **Completion**, taken apart: what is created for the members is bare, and then they are
published, or they could not be resolved. -/
theorem complete_cases (maxDepth : Nat) (h : arena.Sound m) (h_c : arena.class? owner = some c) :
    let created := after (members m maxDepth owner c) arena
    created.Sound m ∧ arena.AddsBare created ∧ created.class? owner = some c ∧
      ((∃ ms, result (members m maxDepth owner c) arena = .ok ms ∧
          result (complete m maxDepth owner) arena = .ok ⟨⟩ ∧
          after (complete m maxDepth owner) arena = created.publish owner ms) ∨
        ∃ e, result (members m maxDepth owner c) arena = .error e ∧
          result (complete m maxDepth owner) arena = .error e ∧
          after (complete m maxDepth owner) arena = created) := by
  intro created
  obtain ⟨_, k, -, h_shows⟩ := h.classes owner c h_c
  have h_follows := members_follows maxDepth h h_c h_shows.key
  obtain ⟨h_result, h_after⟩ := complete_of_some (m := m) maxDepth h_c
  refine ⟨h_follows.sound, h_follows.addsBare, class?_members_self h h_c, ?_⟩
  cases h_members : result (members m maxDepth owner c) arena with
  | ok ms =>
    rw [h_members] at h_result h_after
    exact .inl ⟨ms, rfl, h_result, h_after⟩
  | error e =>
    rw [h_members] at h_result h_after
    exact .inr ⟨e, rfl, h_result, h_after⟩

/-- **Frame.** After a class was completed, every class was there before, or is new and without
members, or is the completed one with the members that were resolved for it. -/
theorem class?_complete (h : arena.Sound m) (h_c : arena.class? owner = some c)
    (h_c' : (after (complete m maxDepth owner) arena).class? id = some c') :
    arena.class? id = some c' ∨ ¬ arena.HasClass id ∧ c'.members = none ∨
      id = owner ∧ ∃ members,
        result (Resolving.members m maxDepth owner c) arena = .ok members ∧
          c' = c.publish members := by
  rw [(complete_of_some maxDepth h_c).2] at h_c'
  split at h_c'
  next members h_members =>
    rw [Arena.class?_publish] at h_c'
    by_cases h_owner : owner = id
    · -- the class at hand is the only one that changes
      subst h_owner
      rw [if_pos rfl, class?_members_self h h_c] at h_c'
      cases h_c'
      exact .inr (.inr ⟨rfl, members, h_members, rfl⟩)
    · rw [if_neg h_owner] at h_c'
      exact (class?_members h h_c h_c').imp_right .inl
  next => exact (class?_members h h_c h_c').imp_right .inl

/-- **A class that is completed has members**, unless completing it failed; and one that had none
before still has none if it did. -/
theorem class?_complete_self (maxDepth : Nat) (h : arena.Sound m)
    (h_c : arena.class? owner = some c) (h_bare : c.members = none) :
    ∃ c', (after (complete m maxDepth owner) arena).class? owner = some c' ∧ c'.key = c.key ∧
      (c'.members = none ↔ ∃ e, result (complete m maxDepth owner) arena = .error e) := by
  have h_there : (after (members m maxDepth owner c) arena).class? owner = some c :=
    class?_members_self h h_c
  rw [(complete_of_some maxDepth h_c).1, (complete_of_some maxDepth h_c).2]
  cases result (members m maxDepth owner c) arena with
  | ok members =>
    refine ⟨c.publish members, ?_, rfl, iff_of_false (fun h_none => ?_) ?_⟩
    · show (Arena.publish _ owner members).class? owner = _
      rw [Arena.class?_publish, if_pos rfl, h_there]
      rfl
    · rw [c.members_publish_of_none h_bare] at h_none
      cases h_none
    · rintro ⟨e, h_e⟩
      cases h_e
  | error e => exact ⟨c, h_there, rfl, iff_of_true h_bare ⟨e, rfl⟩⟩

end Completion

section Rule

variable {m : Metadata} {arena : Arena} {P : Members → Prop}

theorem publishes_complete {maxDepth : Nat}
    (h_P : ∀ arena id c members, result (Resolving.members m maxDepth id c) arena = .ok members →
      P members)
    (h_sound : arena.Sound m) (h : arena.Publishes P) (owner : ClassId) :
    (after (complete m maxDepth owner) arena).Publishes P := by
  cases h_c : arena.class? owner with
  | none =>
    rw [(complete_of_none maxDepth h_c).2]
    exact h
  | some c =>
    obtain ⟨-, h_bare, h_there, h_cases⟩ := complete_cases maxDepth h_sound h_c
    have h_created := h.addsBare h_bare
    rcases h_cases with ⟨ms, h_ms, -, h_after⟩ | ⟨e, -, -, h_after⟩
    · rw [h_after]
      exact Arena.AllMembers.publish (P := fun _ _ => P) h_created h_there
        (h_P arena owner c ms h_ms)
    · rw [h_after]
      exact h_created

end Rule

end Resolving

namespace Resolver

variable {m : Metadata} {config : Config} {P : Members → Prop}

/-- Requests other than a run complete nothing. -/
theorem addsBare_serve {resolver : Resolver} (h : resolver.arena.Sound m) {request : Request}
    (h_known : request.Known resolver.arena) (h_single : request ≠ .run) :
    resolver.arena.AddsBare (resolver.serve m config request).arena := by
  cases request with
  | «class» key =>
    obtain ⟨terms, h_terms⟩ := exists_unfoldsScope h h_known
    exact (Resolving.classOf_follows h
      (k := ⟨key.definition, terms.classArgs, terms.methodArgs⟩) ⟨rfl, h_terms⟩).addsBare
  | type source scope =>
    obtain ⟨terms, h_terms⟩ := exists_unfoldsScope h h_known
    exact (Resolving.type_follows config.maxGenericDepth h h_terms source).addsBare
  | intern made => exact ⟨resolver.arena.le_intern made, fun _ _ h_c => .inl h_c⟩
  | run => exact absurd rfl h_single

section Rule

variable (h_P : ∀ arena id c members,
  Resolving.result (Resolving.members m config.maxGenericDepth id c) arena = .ok members →
    P members)

include h_P

/-- A visit publishes only what resolving members gives. -/
theorem publishes_make {resolver : Resolver} (h_sound : resolver.arena.Sound m)
    (h : resolver.arena.Publishes P) (v : Visit) :
    (make m config resolver v).arena.Publishes P := by
  -- soundness is what makes a step add classes without members only
  cases v with
  | definition d =>
    rw [make, seed, attempt_arena]
    exact h.addsBare (Resolving.definition_follows h_sound d).addsBare
  | listing entry =>
    rw [make, seedListed, attempt_arena]
    exact h.addsBare (Resolving.listed_follows config.maxGenericDepth h_sound entry.1).addsBare
  | «class» i =>
    rw [make, completeClass, attempt_arena]
    exact Resolving.publishes_complete h_P h_sound h ⟨i⟩

theorem RunsFrom.publishes {resolver final : Resolver} (h_runs : RunsFrom m config resolver final)
    (h_sound : resolver.arena.Sound m) (h : resolver.arena.Publishes P) :
    final.arena.Publishes P :=
  (h_runs.induction (P := fun r => r.arena.Sound m ∧ r.arena.Publishes P)
    (fun _ v h_r => ⟨sound_make h_r.1 v, publishes_make h_P h_r.1 h_r.2 v⟩) ⟨h_sound, h⟩).2

/-- **What is published.** What holds of all members that resolving members gives holds of all
members that a caller can see. -/
theorem Reachable.publishes {resolver : Resolver} (h : Reachable m config resolver) :
    resolver.arena.Publishes P := by
  induction h with
  | empty => exact fun _ _ _ h_c => by cases h_c
  | @serve resolver request before h_known ih =>
    by_cases h_run : request = .run
    · subst h_run
      exact (runsFrom_run before.sound).publishes h_P before.sound ih
    · exact ih.addsBare (addsBare_serve before.sound h_known h_run)
  | run before h_runs ih => exact h_runs.publishes h_P before.sound ih

end Rule

end Resolver

end GlobalMetadata
