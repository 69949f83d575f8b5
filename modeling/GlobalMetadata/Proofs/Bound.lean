import GlobalMetadata.Proofs.Termination
import GlobalMetadata.Proofs.Isolation

/-!
# A depth bound that is not hit

The bound on generic depth is looked at in one place, where an instantiation that is too deep gives
way to its definition and is counted. A run that counts none has found every instantiation within
its bound, so that the same run with a larger bound takes the same way everywhere.

`Resolving.Spares x y` compares a step with a bound to the same step with a larger one: where the
first counts nothing, the second is no different, in what it gives, in what it creates and in how it
fails. Since the count never falls (`Grows`), a sequence counts nothing only if its parts do not,
and so the comparison goes through sequences; the one lemma with an argument of its own is
`spares_instantiate`. There is one lemma for each step, and `Resolver.run_eq_of_untruncated` takes
them through the rounds of a whole run. Nothing is asked of the arenas in between.
-/

namespace GlobalMetadata

/-! ### Steps -/

namespace Resolving

variable {α β : Type}

/-- Where `x` counts no instantiation, `y` does and gives the same. -/
structure Spares (x y : Resolving α) : Prop where
  grows : Grows x
  same : ∀ arena, (after x arena).truncated = arena.truncated →
    result y arena = result x arena ∧ after y arena = after x arena

/-- A step that does not look at the bound. -/
theorem Grows.spares {x : Resolving α} (h : Grows x) : Spares x x :=
  ⟨h, fun _ _ => ⟨rfl, rfl⟩⟩

namespace Spares

variable {x y : Resolving α} {f g : α → Resolving β}

theorem bind (h : Spares x y) (h_f : ∀ a, Spares (f a) (g a)) : Spares (x >>= f) (y >>= g) := by
  refine ⟨h.grows.bind fun a => (h_f a).grows, fun arena h_count => ?_⟩
  cases h_x : result x arena with
  | ok a =>
    rw [(bind_of_ok h_x).2] at h_count
    -- the count between the two parts lies between equal counts
    have h_first := (h.grows arena).truncated
    have h_rest := ((h_f a).grows (after x arena)).truncated
    obtain ⟨h_value, h_arena⟩ := h.same arena (by omega)
    obtain ⟨h_value', h_arena'⟩ := (h_f a).same (after x arena) (by omega)
    have h_y := h_value.trans h_x
    rw [(bind_of_ok h_x).1, (bind_of_ok h_x).2, (bind_of_ok h_y).1, (bind_of_ok h_y).2, h_arena]
    exact ⟨h_value', h_arena'⟩
  | error e =>
    rw [(bind_of_error h_x).2] at h_count
    obtain ⟨h_value, h_arena⟩ := h.same arena h_count
    have h_y := h_value.trans h_x
    rw [(bind_of_error h_x).1, (bind_of_error h_x).2, (bind_of_error h_y).1, (bind_of_error h_y).2]
    exact ⟨rfl, h_arena⟩

/-- What comes after a step that does not look at the bound. -/
theorem next (h : Grows x) (h_f : ∀ a, Spares (f a) (g a)) : Spares (x >>= f) (x >>= g) :=
  h.spares.bind h_f

theorem map (h : Spares x y) (k : α → β) : Spares (k <$> x) (k <$> y) := by
  rw [map_eq_pure_bind, map_eq_pure_bind]
  exact h.bind fun _ => (grows_pure _).spares

theorem mapM (h_f : ∀ a, Spares (f a) (g a)) (as : List α) : Spares (as.mapM f) (as.mapM g) := by
  induction as with
  | nil => exact (grows_pure []).spares
  | cons a as ih =>
    rw [List.mapM_cons, List.mapM_cons]
    exact (h_f a).bind fun _ => ih.bind fun _ => (grows_pure _).spares

end Spares

section Steps

variable (m : Metadata) {maxDepth larger : Nat} (h_le : maxDepth ≤ larger) (scope : GenericScope)
  (owner : ClassId)

theorem spares_arguments {resolve resolve' : Nat → Resolving TypeId}
    (h_resolve : ∀ va, Spares (resolve va) (resolve' va)) (address : Nat) :
    Spares (arguments m resolve address) (arguments m resolve' address) := by
  unfold arguments
  split
  · exact (grows_pure _).spares
  · exact .next (grows_lift _) fun _ => .next (grows_lift _) fun addresses =>
      .mapM h_resolve addresses

theorem spares_atAddress {resolve resolve' : Descriptor → Resolving TypeId}
    (h_resolve : ∀ d, Spares (resolve d) (resolve' d)) (address : Nat) :
    Spares (atAddress m resolve address) (atAddress m resolve' address) :=
  .next (grows_lift _) h_resolve

include h_le

/-- The bound is looked at here. An instantiation that is too deep is counted; one that is not is
not too deep for a larger bound either. -/
theorem spares_instantiate (key : ClassKey) :
    Spares (instantiate m maxDepth key) (instantiate m larger key) := by
  refine .next (grows_definition m key.definition) fun base => .next grows_get fun arena => ?_
  dsimp only
  split
  · exact (grows_classType base).spares
  · by_cases h_deep : maxDepth < arena.keyDepth key
    · -- the count goes up, so that there is nothing to compare
      rw [if_pos h_deep]
      refine ⟨Grows.bind (fun arena => arena.le_truncate) fun _ => grows_classType base,
        fun arena h_count => ?_⟩
      exact absurd h_count (Nat.ne_of_gt (grows_classType base arena.truncate).truncated)
    · rw [if_neg h_deep, if_neg fun h => h_deep (Nat.lt_of_le_of_lt h_le h)]
      exact ((grows_classOf m key).bind fun id => grows_classType id).spares

theorem spares_instantiation {resolve resolve' : Nat → Resolving TypeId}
    (h_resolve : ∀ va, Spares (resolve va) (resolve' va)) (address : Nat) :
    Spares (instantiation m maxDepth resolve address)
      (instantiation m larger resolve' address) :=
  .next (grows_lift _) fun generic => .next (grows_lift _) fun _ =>
    (spares_arguments m h_resolve generic.classInst).bind fun _ =>
      (spares_arguments m h_resolve generic.methodInst).bind fun _ =>
        spares_instantiate m h_le _

theorem spares_payload {resolve resolve' : Nat → Resolving TypeId}
    (h_resolve : ∀ va, Spares (resolve va) (resolve' va)) (d : Descriptor) :
    Spares (payload m maxDepth scope resolve d) (payload m larger scope resolve' d) := by
  unfold payload
  split
  · exact (grows_intern _).spares
  · split
    · exact (grows_intern _).spares
    · exact ((grows_definition m _).bind fun id => grows_classType id).spares
    · refine (h_resolve _).bind fun element => ?_
      split <;> exact (grows_intern _).spares
    · exact .next (grows_lift _) fun shape =>
        (h_resolve _).bind fun _ => (grows_intern _).spares
    · exact (grows_parameter m scope _ _).spares
    · exact spares_instantiation m h_le h_resolve _

theorem spares_descriptorWithin (levels : Nat) (d : Descriptor) :
    Spares (descriptorWithin m maxDepth scope levels d)
      (descriptorWithin m larger scope levels d) := by
  induction levels generalizing d with
  | zero => exact (grows_throw _).spares
  | succ levels ih =>
    refine (spares_payload m h_le scope (spares_atAddress m ih) d).bind fun type => ?_
    split
    · exact (grows_intern _).spares
    · exact (grows_pure _).spares

theorem spares_descriptor (d : Descriptor) :
    Spares (descriptor m maxDepth scope d) (descriptor m larger scope d) :=
  spares_descriptorWithin m h_le scope _ d

theorem spares_typeIndex (index : Nat) :
    Spares (typeIndex m maxDepth scope index) (typeIndex m larger scope index) :=
  .next (grows_lift _) (spares_descriptor m h_le scope)

theorem spares_listed (address : Nat) :
    Spares (listed m maxDepth address) (listed m larger address) :=
  spares_instantiation m h_le
    (spares_atAddress m (spares_descriptorWithin m h_le .empty nestingLimit)) address

theorem spares_field (row : FieldDefinition) :
    Spares (field m maxDepth scope owner row) (field m larger scope owner row) := by
  refine .next (grows_lift _) fun name => ?_
  split
  · exact .next (grows_lift _) fun d => (spares_descriptor m h_le scope d).bind fun _ =>
      (grows_pure _).spares
  · exact (grows_throw _).spares

theorem spares_fields (row : TypeDefinition) :
    Spares (fields m maxDepth scope owner row) (fields m larger scope owner row) :=
  .next (grows_lift _) fun rows =>
    (Spares.mapM (spares_field m h_le scope owner) rows).bind fun _ => (grows_pure _).spares

theorem spares_methodParameter (row : ParameterDefinition) :
    Spares (methodParameter m maxDepth scope row) (methodParameter m larger scope row) := by
  refine .next (grows_lift _) fun name => ?_
  split
  · exact (spares_typeIndex m h_le scope _).bind fun _ => (grows_pure _).spares
  · exact (grows_throw _).spares

theorem spares_parameters (row : MethodDefinition) :
    Spares (parameters m maxDepth scope row) (parameters m larger scope row) :=
  .next (grows_lift _) (.mapM (spares_methodParameter m h_le scope))

theorem spares_returnType (index : Option Nat) :
    Spares (returnType m maxDepth scope index) (returnType m larger scope index) := by
  cases index with
  | none => exact (grows_intern _).spares
  | some index => exact spares_typeIndex m h_le scope index

theorem spares_method (c : ResolvedClass) (row : MethodDefinition) :
    Spares (method m maxDepth scope owner c row) (method m larger scope owner c row) :=
  .next (grows_lift _) fun _ => (spares_returnType m h_le scope _).bind fun _ =>
    (spares_parameters m h_le scope row).bind fun _ =>
      (grows_get.bind fun _ => grows_pure _).spares

theorem spares_methods (c : ResolvedClass) (row : TypeDefinition) :
    Spares (methods m maxDepth scope owner c row) (methods m larger scope owner c row) :=
  .next (grows_lift _) fun rows =>
    (Spares.mapM (spares_method m h_le scope owner c) rows).bind fun _ => (grows_pure _).spares

theorem spares_underlying (c : ResolvedClass) (row : TypeDefinition) :
    Spares (underlying m maxDepth scope c row) (underlying m larger scope c row) := by
  unfold underlying
  split
  · split
    · exact (spares_typeIndex m h_le scope _).map _
    · exact (grows_pure _).spares
  · exact (grows_pure _).spares

theorem spares_members (c : ResolvedClass) :
    Spares (members m maxDepth owner c) (members m larger owner c) :=
  .next (grows_lift _) fun row => (spares_underlying m h_le _ c row).bind fun _ =>
    (spares_fields m h_le _ owner row).bind fun _ =>
      (spares_methods m h_le _ owner c row).bind fun _ =>
        ((grows_nested m owner c row).bind fun _ => grows_pure _).spares

theorem spares_complete : Spares (complete m maxDepth owner) (complete m larger owner) := by
  refine .next grows_get fun arena => ?_
  split
  · exact (grows_throw _).spares
  · refine (spares_members m h_le owner _).bind fun members => ?_
    exact Grows.spares fun arena => arena.le_publish owner members

end Steps
end Resolving

/-! ### Runs -/

namespace Resolver

variable {α : Type}

/-- An attempt shows nothing of a step but what it gives and the arena that it leads to. -/
theorem attempt_congr {resolver : Resolver} {x y : Resolving α}
    (h_value : Resolving.result y resolver.arena = Resolving.result x resolver.arena)
    (h_arena : Resolving.after y resolver.arena = Resolving.after x resolver.arena)
    (site : FailureSite) (describe : Arena → Option Nat × String) :
    resolver.attempt y site describe = resolver.attempt x site describe := by
  have h_perform : resolver.perform y = resolver.perform x :=
    Prod.ext h_value (congrArg (fun arena => Resolver.mk arena resolver.failures) h_arena)
  rw [attempt, attempt, h_perform]

/-- Where a step counts no instantiation, the step with a larger bound is written down alike. -/
theorem attempt_eq_of_spares {resolver : Resolver} {x y : Resolving α} (h : Resolving.Spares x y)
    {site : FailureSite} {describe : Arena → Option Nat × String}
    (h_count : (resolver.attempt x site describe).arena.truncated = resolver.arena.truncated) :
    resolver.attempt y site describe = resolver.attempt x site describe := by
  rw [attempt_arena] at h_count
  obtain ⟨h_value, h_arena⟩ := h.same resolver.arena h_count
  exact attempt_congr h_value h_arena site describe

/-- Steps that only add and count nothing in all count nothing one by one, and may be exchanged one
by one. -/
theorem foldl_eq_of_untruncated {step step' : Resolver → α → Resolver}
    (h_le : ∀ resolver a, resolver.arena ≤ (step resolver a).arena)
    (h_same : ∀ resolver a, (step resolver a).arena.truncated = resolver.arena.truncated →
      step' resolver a = step resolver a) (as : List α) (resolver : Resolver)
    (h_count : (as.foldl step resolver).arena.truncated = resolver.arena.truncated) :
    as.foldl step' resolver = as.foldl step resolver := by
  induction as generalizing resolver with
  | nil => rfl
  | cons a as ih =>
    have h_first := (h_le resolver a).truncated
    have h_rest := (le_foldl h_le as (step resolver a)).truncated
    rw [List.foldl_cons] at h_count
    rw [List.foldl_cons, List.foldl_cons, h_same resolver a (by omega)]
    exact ih _ (by omega)

variable {m : Metadata} {config : Config} {maxDepth larger : Nat} {resolver : Resolver}

theorem completeRange_eq_of_untruncated (h_le : maxDepth ≤ larger) {first last : Nat}
    (h_count : (completeRange m maxDepth first last resolver).arena.truncated =
      resolver.arena.truncated) :
    completeRange m larger first last resolver = completeRange m maxDepth first last resolver :=
  foldl_eq_of_untruncated (le_completeClass m maxDepth)
    (fun _ _ => attempt_eq_of_spares (Resolving.spares_complete m h_le _)) _ resolver h_count

/-- All rounds, by the induction that they themselves give. They only add, and where they count
nothing they are the rounds with any larger bound. -/
theorem completeFrom?_eq_of_untruncated (h_le : maxDepth ≤ larger) {done : Nat} {final : Resolver}
    (h_final : completeFrom? m maxDepth done resolver = some final) :
    resolver.arena ≤ final.arena ∧ (final.arena.truncated = resolver.arena.truncated →
      completeFrom? m larger done resolver = some final) := by
  refine completeFrom?.partial_correctness m maxDepth (fun done resolver final =>
    resolver.arena ≤ final.arena ∧ (final.arena.truncated = resolver.arena.truncated →
      completeFrom? m larger done resolver = some final)) ?_ done resolver final h_final
  intro next ih done resolver final h_next
  dsimp only at h_next
  split at h_next
  next h_done =>
    cases h_next
    refine ⟨le_refl _, fun _ => ?_⟩
    rw [completeFrom?, if_pos h_done]
  next h_done =>
    obtain ⟨h_rest, h_same⟩ := ih _ _ _ h_next
    have h_round : resolver.arena ≤
        (completeRange m maxDepth done resolver.arena.classes.size resolver).arena :=
      le_foldl (le_completeClass m maxDepth) _ resolver
    refine ⟨le_trans h_round h_rest, fun h_count => ?_⟩
    -- this round counts nothing, and neither do the following ones
    have h_before := h_round.truncated
    have h_after := h_rest.truncated
    rw [completeFrom?, if_neg h_done]
    rw [completeRange_eq_of_untruncated h_le (by omega)]
    exact h_same (by omega)

theorem le_seedListings : resolver.arena ≤ (resolver.seedListings m config).arena := by
  rw [seedListings]
  split
  · exact le_foldl (le_seedListed m config.maxGenericDepth) _ resolver
  · exact le_refl _

theorem seedListings_eq_of_untruncated (h_le : config.maxGenericDepth ≤ larger)
    (h_count : (resolver.seedListings m config).arena.truncated = resolver.arena.truncated) :
    resolver.seedListings m { config with maxGenericDepth := larger } =
      resolver.seedListings m config := by
  unfold seedListings at h_count ⊢
  dsimp only
  split at h_count
  · rename_i h_materialize
    rw [if_pos h_materialize, if_pos h_materialize]
    exact foldl_eq_of_untruncated (le_seedListed m config.maxGenericDepth)
      (fun _ _ => attempt_eq_of_spares (Resolving.spares_listed m h_le _)) _ resolver h_count
  · rename_i h_materialize
    rw [if_neg h_materialize, if_neg h_materialize]

/-- **Runs.** A run that counts no instantiation is the run with any larger bound. -/
theorem run_eq_of_untruncated (h_sound : resolver.arena.Sound m)
    (h_le : config.maxGenericDepth ≤ larger)
    (h_count : (resolver.run m config).arena.truncated = resolver.arena.truncated) :
    resolver.run m { config with maxGenericDepth := larger } = resolver.run m config := by
  have h_seeds : resolver.arena ≤ (resolver.seedDefinitions m).arena :=
    le_foldl (le_seed m) _ resolver
  have h_listings : (resolver.seedDefinitions m).arena ≤ (resolver.start m config).arena :=
    le_seedListings
  have h_started : (resolver.start m config).arena.Sound m := sound_start h_sound
  obtain ⟨rounds, _, h_final⟩ := exists_rounds h_started config.maxGenericDepth
  obtain ⟨h_rounds, h_same⟩ := completeFrom?_eq_of_untruncated h_le h_final
  rw [run, h_final, Option.getD_some] at h_count
  -- each of the three parts of the run counts nothing
  have h_first := h_seeds.truncated
  have h_second := h_listings.truncated
  have h_third := h_rounds.truncated
  have h_listed : (resolver.start m config).arena.truncated =
      (resolver.seedDefinitions m).arena.truncated := by omega
  have h_start : resolver.start m { config with maxGenericDepth := larger } =
      resolver.start m config :=
    seedListings_eq_of_untruncated h_le h_listed
  rw [run, run, h_start, h_same (by omega), h_final]

end Resolver

/-! ### Graphs -/

/-- **A bound that is not hit is not seen.** Where resolution with some bound on generic depth
reports no instantiation that was cut off, resolution with any larger bound reports none either, and
gives the same graph: the same classes and types under the same ids, with the same members, the same
modules and the same failures. -/
theorem TypeGraph.build_eq_of_untruncated (m : Metadata) (config : Config) (larger : Nat)
    (h_le : config.maxGenericDepth ≤ larger) (h_count : (build m config).report.truncated = 0) :
    (build m { config with maxGenericDepth := larger }).report.truncated = 0 ∧
      build m { config with maxGenericDepth := larger } = build m config := by
  have h_run : Resolver.empty.run m { config with maxGenericDepth := larger } =
      Resolver.empty.run m config :=
    Resolver.run_eq_of_untruncated (Arena.sound_empty m) h_le h_count
  have h_graph : build m { config with maxGenericDepth := larger } = build m config :=
    congrArg (Resolver.toGraph m) h_run
  exact ⟨h_graph ▸ h_count, h_graph⟩

/-- `boxed` with its instantiation listed in the registration tables. -/
def Metadata.boxedListed : Metadata :=
  { boxed with registration := { boxed.registration with genericClasses := #[0x1000] } }

/-- The instantiation in `boxedListed` is just within a depth of one, so that a depth of four gives
the same graph. -/
theorem TypeGraph.build_eq_of_untruncated_boxed :
    let shallow := { Config.minimal with maxGenericDepth := 1, materialize := true }
    let deep := { Config.minimal with maxGenericDepth := 4, materialize := true }
    (build .boxedListed shallow).report = ⟨[], 3, 1, 0⟩ ∧
      build .boxedListed deep = build .boxedListed shallow := by
  intro shallow deep
  have h_run : Resolver.empty.run .boxedListed shallow =
      Resolver.completeRange .boxedListed 1 0 3 (Resolver.empty.start .boxedListed shallow) :=
    Resolver.run_of_one_round (by decide +kernel) (by decide +kernel)
  have h_report : (build .boxedListed shallow).report = ⟨[], 3, 1, 0⟩ := by
    rw [build, h_run]
    decide +kernel
  exact ⟨h_report, (build_eq_of_untruncated .boxedListed shallow 4 (by decide)
    (congrArg Report.truncated h_report)).2⟩

end GlobalMetadata
