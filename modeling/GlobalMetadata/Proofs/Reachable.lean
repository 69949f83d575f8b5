import GlobalMetadata.Proofs.Members

/-!
# Reachable states are sound

A caller that does not forge ids sees sound arenas only. The step lemmas are those of the previous
modules; here they are lifted to visits (`Resolver.sound_make`), from there to runs in any order
(`Resolver.RunsFrom.sound`), and to everything that a caller may do (`Resolver.Reachable.sound`).
-/

namespace GlobalMetadata

namespace Resolving

variable {m : Metadata} {arena : Arena} (maxDepth : Nat)

/-- Completing a class that is not there does nothing. -/
theorem complete_of_none {id : ClassId} (h_c : arena.class? id = none) :
    result (complete m maxDepth id) arena = .error (.unresolved (.classId id.index)) ∧
      after (complete m maxDepth id) arena = arena := by
  unfold complete
  rw [result_get_bind, after_get_bind, h_c]
  exact ⟨rfl, rfl⟩

/-- Completing a class that is there resolves its members and publishes them. -/
theorem complete_of_some {id : ClassId} {c : ResolvedClass} (h_c : arena.class? id = some c) :
    result (complete m maxDepth id) arena =
        (result (members m maxDepth id c) arena).map (fun _ => ⟨⟩) ∧
      after (complete m maxDepth id) arena =
        match result (members m maxDepth id c) arena with
        | .ok members => (after (Resolving.members m maxDepth id c) arena).publish id members
        | .error _ => after (Resolving.members m maxDepth id c) arena := by
  unfold complete
  rw [result_get_bind, after_get_bind, h_c]
  dsimp only
  -- what was created for the members stays in both cases
  cases h_members : result (members m maxDepth id c) arena with
  | ok members => exact bind_of_ok h_members
  | error e => exact bind_of_error h_members

/-- Completing a class fails exactly if its members cannot be resolved. -/
theorem complete_error_iff {id : ClassId} {c : ResolvedClass} (h_c : arena.class? id = some c)
    {e : Error} :
    result (complete m maxDepth id) arena = .error e ↔
      result (members m maxDepth id c) arena = .error e := by
  rw [(complete_of_some maxDepth h_c).1]
  cases result (members m maxDepth id c) arena with
  | ok members => exact iff_of_false (fun h => by cases h) (fun h => by cases h)
  | error e' =>
    show Except.error e' = _ ↔ _
    rw [Except.error.injEq, Except.error.injEq]

theorem sound_complete (h : arena.Sound m) (id : ClassId) :
    (after (complete m maxDepth id) arena).Sound m := by
  cases h_c : arena.class? id with
  | none =>
    rw [(complete_of_none maxDepth h_c).2]
    exact h
  | some c =>
    obtain ⟨lineage, k, -, h_shows⟩ := h.classes id c h_c
    have h_members := members_follows maxDepth h h_c h_shows.key
    rw [(complete_of_some maxDepth h_c).2]
    split
    · exact h_members.sound.publish id _
    · exact h_members.sound

end Resolving

namespace Resolver

variable {α : Type} {m : Metadata} {config : Config}

theorem sound_seed {resolver : Resolver} (h : resolver.arena.Sound m) (index : Nat) :
    (seed m resolver index).arena.Sound m := by
  rw [seed, attempt_arena]
  exact (Resolving.definition_follows h index).sound

theorem sound_seedListed (maxDepth : Nat) {resolver : Resolver} (h : resolver.arena.Sound m)
    (entry : Nat × Nat) : (seedListed m maxDepth resolver entry).arena.Sound m := by
  rw [seedListed, attempt_arena]
  exact (Resolving.listed_follows maxDepth h _).sound

theorem sound_completeClass (maxDepth : Nat) {resolver : Resolver} (h : resolver.arena.Sound m)
    (index : Nat) : (completeClass m maxDepth resolver index).arena.Sound m := by
  rw [completeClass, attempt_arena]
  exact Resolving.sound_complete maxDepth h ⟨index⟩

/-- **Visits keep soundness.** -/
theorem sound_make {resolver : Resolver} (h : resolver.arena.Sound m) (v : Visit) :
    (make m config resolver v).arena.Sound m := by
  cases v with
  | definition d => exact sound_seed h d
  | listing entry => exact sound_seedListed config.maxGenericDepth h entry
  | «class» i => exact sound_completeClass config.maxGenericDepth h i

theorem sound_start {resolver : Resolver} (h : resolver.arena.Sound m) :
    (resolver.start m config).arena.Sound m :=
  start_induction (P := fun r => r.arena.Sound m) (fun _ v h_r => sound_make h_r v) h

theorem RunsFrom.sound {resolver final : Resolver} (h_runs : RunsFrom m config resolver final)
    (h : resolver.arena.Sound m) : final.arena.Sound m :=
  h_runs.induction (P := fun r => r.arena.Sound m) (fun _ v h_r => sound_make h_r v) h

/-- **Runs keep soundness**, whether or not their rounds come to an end. -/
theorem sound_run {resolver : Resolver} (h : resolver.arena.Sound m) :
    (resolver.run m config).arena.Sound m :=
  run_induction (P := fun r => r.arena.Sound m) (fun _ v h_r => sound_make h_r v) h

/-- The ids of a request that was not forged stand for terms. -/
theorem exists_unfoldsScope {arena : Arena} (h : arena.Sound m) {scope : GenericScope}
    (h_scope : arena.HasScope scope) : ∃ terms, arena.UnfoldsScope terms scope := by
  obtain ⟨classArgs, h_class⟩ := h.exists_unfoldsAll h_scope.1
  obtain ⟨methodArgs, h_method⟩ := h.exists_unfoldsAll h_scope.2
  exact ⟨⟨classArgs, methodArgs⟩, h_class, h_method⟩

theorem sound_serve {resolver : Resolver} (h : resolver.arena.Sound m) {request : Request}
    (h_known : request.Known resolver.arena) :
    (resolver.serve m config request).arena.Sound m := by
  cases request with
  | «class» key =>
    -- the ids of the key were handed out before
    obtain ⟨terms, h_terms⟩ := exists_unfoldsScope h h_known
    exact (Resolving.classOf_follows h
      (k := ⟨key.definition, terms.classArgs, terms.methodArgs⟩) ⟨rfl, h_terms⟩).sound
  | type source scope =>
    obtain ⟨terms, h_terms⟩ := exists_unfoldsScope h h_known
    exact (Resolving.type_follows config.maxGenericDepth h h_terms source).sound
  | intern made => exact h.intern h_known
  | run => exact sound_run h

/-- **Soundness.** Every state that a caller can see is sound. -/
theorem Reachable.sound {resolver : Resolver} (h : Reachable m config resolver) :
    resolver.arena.Sound m := by
  induction h with
  | empty => exact Arena.sound_empty m
  | serve request _ h_known ih => exact sound_serve ih h_known
  | run _ h_runs ih => exact h_runs.sound ih

end Resolver

end GlobalMetadata
