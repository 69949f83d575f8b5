import GlobalMetadata.Proofs.Growth

/-!
# The order of visits

A run makes visits, one after the other: to definitions, to listed instantiations and to classes.
Which definition comes first is left open, and so is the order of the listings and of the classes of
each round: a caller may have them taken in any order. `Resolver.RunsFrom` are the states that a
resolver can come to in one of these ways. No two visits overlap.

* `Resolver.make` is one visit. It only adds (`Resolver.le_make`);
* `Resolver.RunsFrom.exists_visits`: whatever the order, a run is a list of visits, so that what
  every visit keeps is kept by every run (`Resolver.RunsFrom.induction`);
* `Resolver.run_eq_or_runsFrom`: the run that takes everything in its own order is one of them, as
  soon as its rounds come to an end.
-/

namespace GlobalMetadata

/-- The listed instantiations that a run visits, each with its position. -/
def Metadata.listings (m : Metadata) (config : Config) : List (Nat × Nat) :=
  if config.materialize then m.registration.genericClasses.toList.zipIdx else []

/-- One of the things that a run does. -/
inductive Visit
  /-- Creates the class of a type definition. -/
  | definition (index : Nat)
  /-- Resolves a listed instantiation, given by its address and its position. -/
  | listing (entry : Nat × Nat)
  /-- Completes the class with a number. -/
  | class (index : Nat)
  deriving DecidableEq

namespace Resolver

section Orders

variable (m : Metadata) (config : Config) (maxDepth : Nat)

/-- The state after a visit. -/
def make (resolver : Resolver) : Visit → Resolver
  | .definition d => seed m resolver d
  | .listing entry => seedListed m config.maxGenericDepth resolver entry
  | .class i => completeClass m config.maxGenericDepth resolver i

/-- Completes all classes from `done` on, round by round, each round in any order. -/
inductive Completes : Nat → Resolver → Resolver → Prop
  /-- No class is left. -/
  | last {done : Nat} {resolver : Resolver} (none_left : resolver.arena.classes.size ≤ done) :
      Completes done resolver resolver
  /-- A round over all classes that are left, and what follows it. -/
  | round {done : Nat} {order : List Nat} {resolver final : Resolver}
      (some_left : done < resolver.arena.classes.size)
      (visits : order.Perm (List.range' done (resolver.arena.classes.size - done)))
      (rest : Completes resolver.arena.classes.size
        (order.foldl (completeClass m maxDepth) resolver) final) :
      Completes done resolver final

/-- What a run can bring a resolver to, in some order. -/
def RunsFrom (resolver final : Resolver) : Prop :=
  ∃ (seeds : List Nat) (listed : List (Nat × Nat)),
    seeds.Perm (List.range m.typeDefinitions.size) ∧ listed.Perm (m.listings config) ∧
    Completes m config.maxGenericDepth 0
      (listed.foldl (seedListed m config.maxGenericDepth) (seeds.foldl (seed m) resolver)) final

end Orders

variable {m : Metadata} {config : Config} {maxDepth : Nat} {resolver final : Resolver}

/-! ### Runs are visits -/

/-- A visit only adds. -/
theorem le_make (m : Metadata) (config : Config) (resolver : Resolver) (v : Visit) :
    resolver.arena ≤ (make m config resolver v).arena := by
  cases v with
  | definition d => exact le_seed m resolver d
  | listing entry => exact le_seedListed m config.maxGenericDepth resolver entry
  | «class» i => exact le_completeClass m config.maxGenericDepth resolver i

/-- Visits to definitions and then to listings. -/
theorem foldl_make_start (seeds : List Nat) (listed : List (Nat × Nat)) (resolver : Resolver) :
    (seeds.map Visit.definition ++ listed.map Visit.listing).foldl (make m config) resolver =
      listed.foldl (seedListed m config.maxGenericDepth) (seeds.foldl (seed m) resolver) := by
  rw [List.foldl_append, List.foldl_map, List.foldl_map]
  rfl

/-- Everything of a run but its rounds, in order. -/
theorem start_eq_foldl (m : Metadata) (config : Config) (resolver : Resolver) :
    resolver.start m config = (m.listings config).foldl (seedListed m config.maxGenericDepth)
      ((List.range m.typeDefinitions.size).foldl (seed m) resolver) := by
  rw [start, seedListings, Metadata.listings]
  split <;> rfl

theorem Completes.le {done : Nat} (h : Completes m maxDepth done resolver final) :
    resolver.arena ≤ final.arena := by
  induction h with
  | last => exact le_refl _
  | round _ _ _ ih => exact le_trans (le_foldl (le_completeClass m maxDepth) _ _) ih

/-- Rounds are visits to classes, by induction on them. -/
theorem Completes.exists_order {done : Nat} (h : Completes m maxDepth done resolver final) :
    ∃ order : List Nat, final = order.foldl (completeClass m maxDepth) resolver := by
  induction h with
  | last => exact ⟨[], rfl⟩
  | @round _ order _ _ _ _ _ ih =>
    obtain ⟨later, rfl⟩ := ih
    exact ⟨order ++ later, List.foldl_append.symm⟩

/-- **Runs are visits**, whatever the order. -/
theorem RunsFrom.exists_visits (h : RunsFrom m config resolver final) :
    ∃ visits : List Visit, final = visits.foldl (make m config) resolver := by
  obtain ⟨seeds, listed, -, -, h_rounds⟩ := h
  obtain ⟨order, rfl⟩ := h_rounds.exists_order
  -- where one round ends and the next one begins does not matter for the visits
  refine ⟨seeds.map .definition ++ listed.map .listing ++ order.map .class, ?_⟩
  rw [List.foldl_append, foldl_make_start, List.foldl_map]
  rfl

/-- **Induction over a run**, in any order. What every visit keeps is kept by a run. -/
theorem RunsFrom.induction {P : Resolver → Prop} (h : RunsFrom m config resolver final)
    (h_make : ∀ r v, P r → P (make m config r v)) (h_P : P resolver) : P final := by
  obtain ⟨visits, rfl⟩ := h.exists_visits
  exact foldl_induction h_make visits h_P

/-- **Growth over a run.** A run keeps every type, every class and every published member. -/
theorem RunsFrom.le (h : RunsFrom m config resolver final) : resolver.arena ≤ final.arena :=
  h.induction (P := fun r => resolver.arena ≤ r.arena)
    (fun r v h_r => le_trans h_r (le_make m config r v)) (le_refl _)

/-! ### The run in order -/

/-- Rounds in order are rounds in some order. -/
theorem completes_of_completeFrom? {done : Nat}
    (h : completeFrom? m maxDepth done resolver = some final) :
    Completes m maxDepth done resolver final := by
  refine completeFrom?.partial_correctness m maxDepth (Completes m maxDepth) ?_ done resolver final
    h
  intro next ih done resolver final h_final
  dsimp only at h_final
  -- no class is left, or one round comes next
  split at h_final
  next h_last =>
    cases h_final
    exact .last h_last
  next h_more => exact .round (Nat.not_le.mp h_more) (.refl _) (ih _ _ _ h_final)

/-- Rounds that come to an end make a run. -/
theorem runsFrom_of_completeFrom?
    (h : completeFrom? m config.maxGenericDepth 0 (resolver.start m config) = some final) :
    RunsFrom m config resolver final := by
  refine ⟨_, _, .refl _, .refl _, ?_⟩
  rw [← start_eq_foldl]
  exact completes_of_completeFrom? h

/-- A run in order is one of the runs, or changes nothing. -/
theorem run_eq_or_runsFrom (m : Metadata) (config : Config) (resolver : Resolver) :
    resolver.run m config = resolver ∨ RunsFrom m config resolver (resolver.run m config) := by
  rw [run]
  cases h : completeFrom? m config.maxGenericDepth 0 (resolver.start m config) with
  | none =>
    -- rounds without an end would leave no result to go on with
    exact .inl rfl
  | some final => exact .inr (runsFrom_of_completeFrom? h)

/-- What every visit keeps is kept by all visits of definitions and listings. -/
theorem start_induction {P : Resolver → Prop} (h_make : ∀ r v, P r → P (make m config r v))
    (h : P resolver) : P (resolver.start m config) := by
  rw [start_eq_foldl, ← foldl_make_start]
  exact foldl_induction h_make _ h

/-- What every visit keeps is kept by the run in order, however many rounds it takes. -/
theorem run_induction {P : Resolver → Prop} (h_make : ∀ r v, P r → P (make m config r v))
    (h : P resolver) : P (resolver.run m config) := by
  rcases run_eq_or_runsFrom m config resolver with h_same | h_runs
  · exact h_same.symm ▸ h
  · exact h_runs.induction h_make h

theorem le_run (m : Metadata) (config : Config) (resolver : Resolver) :
    resolver.arena ≤ (resolver.run m config).arena :=
  run_induction (P := fun r => resolver.arena ≤ r.arena)
    (fun r v h_r => le_trans h_r (le_make m config r v)) (le_refl _)

end Resolver

end GlobalMetadata
