import GlobalMetadata.Proofs.Outcome
import GlobalMetadata.Proofs.Termination

/-!
# Runs of a new resolver

`Resolver.RunsTo` are the states that a new resolver can come to by a run in some order: what the
visits of definitions and listings have left (`Resolver.visit`), with the classes of each round
completed. The run in order is one of them (`Resolver.runsTo_run`), and whatever order the
definitions and the listings are visited in, the rounds come to an end
(`Resolver.exists_completes`).
-/

namespace GlobalMetadata

namespace Resolver

variable {m : Metadata} {config : Config} {maxDepth : Nat}

/-- Old classes and new ones. -/
theorem range_append_range' {n size : Nat} (h : n ≤ size) :
    List.range n ++ List.range' n (size - n) = List.range size := by
  rw [List.range_eq_range', List.range_eq_range', ← Nat.add_sub_cancel' h,
    ← List.range'_append_1, Nat.zero_add, Nat.add_sub_cancel_left]

/-- The state after visiting type definitions and listed instantiations. -/
def visit (m : Metadata) (config : Config) (seeds : List Nat) (listed : List (Nat × Nat)) :
    Resolver :=
  listed.foldl (seedListed m config.maxGenericDepth) (seeds.foldl (seed m) .empty)

/-- **Runs.** A new resolver can come to this state in some order. -/
def RunsTo (m : Metadata) (config : Config) (final : Resolver) : Prop :=
  ∃ seeds listed, seeds.Perm (List.range m.typeDefinitions.size) ∧
    listed.Perm (m.listings config) ∧
    Completes m config.maxGenericDepth 0 (visit m config seeds listed) final

theorem sound_visit (m : Metadata) (config : Config) (seeds : List Nat)
    (listed : List (Nat × Nat)) : (visit m config seeds listed).arena.Sound m := by
  refine foldl_induction (P := fun r => r.arena.Sound m)
    (fun _ entry h => sound_seedListed config.maxGenericDepth h entry) listed ?_
  exact foldl_induction (P := fun r => r.arena.Sound m) (fun _ i h => sound_seed h i) seeds
    (Arena.sound_empty m)

/-- **Every order of visits can be finished.** -/
theorem exists_completes (m : Metadata) (config : Config) (seeds : List Nat)
    (listed : List (Nat × Nat)) :
    ∃ final, Completes m config.maxGenericDepth 0 (visit m config seeds listed) final := by
  obtain ⟨rounds, -, h_final⟩ :=
    exists_rounds (sound_visit m config seeds listed) config.maxGenericDepth
  exact ⟨_, completes_of_completeFrom? h_final⟩

/-- A run of one round, which creates no class. -/
theorem run_of_one_round {resolver : Resolver} {n : Nat}
    (h_first : (resolver.start m config).arena.classes.size = n + 1)
    (h_last : (completeRange m config.maxGenericDepth 0 (n + 1)
      (resolver.start m config)).arena.classes.size = n + 1) :
    resolver.run m config =
      completeRange m config.maxGenericDepth 0 (n + 1) (resolver.start m config) := by
  rw [run, completeFrom?, h_first, if_neg (Nat.not_succ_le_zero n), completeFrom?, h_last,
    if_pos (Nat.le_refl _)]
  rfl

/-- The run in order completes what visiting everything in order has left. -/
theorem completes_run (m : Metadata) (config : Config) :
    Completes m config.maxGenericDepth 0
      (visit m config (List.range m.typeDefinitions.size) (m.listings config))
      (Resolver.empty.run m config) := by
  have h_start : (Resolver.empty.start m config).arena.Sound m := sound_start (Arena.sound_empty m)
  obtain ⟨rounds, -, h_final⟩ := exists_rounds h_start config.maxGenericDepth
  rw [visit, ← start_eq_foldl, run, h_final]
  exact completes_of_completeFrom? h_final

/-- **The run in order** is one of them. -/
theorem runsTo_run (m : Metadata) (config : Config) :
    RunsTo m config (Resolver.empty.run m config) :=
  runsFrom_run (Arena.sound_empty m)

end Resolver

end GlobalMetadata
