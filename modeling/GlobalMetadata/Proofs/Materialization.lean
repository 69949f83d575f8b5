import GlobalMetadata.Proofs.Bound
import GlobalMetadata.Proofs.Diagnosis
import GlobalMetadata.Proofs.Forest
import GlobalMetadata.Proofs.Viewing

/-!
# Materialization only adds

A run may resolve every instantiation that the registration tables list, besides what members ask
for. These come before any class is completed, so that ids, rounds and the order of completion all
change. What comes of the other classes does not: every class is what its key says, and with more to
start from more keys are reached (`Metadata.Reaches.materialize`).

What is written down does not change either. `Metadata.RefusesDefinition` and
`Metadata.RefusesMembers` are the failures to create the class of a definition and to complete the
class for a key, in whatever arena that was tried, and by `Resolving.FailsAlike` there is one such
failure. What a run writes down is among these (`Resolver.RunsTo.diagnosed`).

Nor does it matter for the view whether instantiations were materialized. The classes at the top of
modules can be told by the tables, and so can whether all that is shown can be spelled
(`Resolver.exists_view_iff`).
-/

namespace GlobalMetadata

theorem Failure.eq_of_parts {f f' : Failure} (h_definition : f.definition = f'.definition)
    (h_subject : f.subject = f'.subject) (h_error : f.error = f'.error) : f = f' := by
  obtain ⟨definition, subject, error⟩ := f
  obtain ⟨definition', subject', error'⟩ := f'
  cases h_definition
  cases h_subject
  cases h_error
  rfl

/-! ### What is reached -/

namespace Metadata

variable {m : Metadata} {config : Config} {k : KeyTerm} {d : Nat} {f f' : Failure}

/-- **More to start from**, and nothing else changes: every key that is reached is still reached. -/
theorem Reaches.materialize (h : m.Reaches { config with materialize := false } k) :
    m.Reaches { config with materialize := true } k := by
  induction h with
  | definition h_traces => exact .definition h_traces
  | listed h_visited _ => exact absurd h_visited List.not_mem_nil
  | member _ h_asked ih => exact .member ih h_asked

/-! ### Failures -/

/-- A failure to create the class of a definition. -/
structure RefusesDefinition (m : Metadata) (d : Nat) (f : Failure) : Prop where
  definition : f.definition = some d
  subject : f.subject = s!"type definition {d}"
  error : ∃ arena : Arena, arena.Sound m ∧
    Resolving.result (Resolving.definition m d) arena = .error f.error

/-- A failure to complete the class for a key, where every definition with a chain is there. -/
structure RefusesMembers (m : Metadata) (config : Config) (k : KeyTerm) (f : Failure) : Prop where
  definition : f.definition = some k.definition
  subject : f.subject = m.fullDisplay k
  error : ∃ (arena : Arena) (id : ClassId), arena.Sound m ∧ arena.Seeded m ∧
    arena.UnfoldsClass k id ∧
      Resolving.result (Resolving.complete m config.maxGenericDepth id) arena = .error f.error

/-- **One failure for a definition**, if no tower is too high. -/
theorem RefusesDefinition.unique (h_limit : m.TowersInLimit) (h : m.RefusesDefinition d f)
    (h' : m.RefusesDefinition d f') : f = f' := by
  obtain ⟨arena, h_sound, h_e⟩ := h.error
  obtain ⟨arena', h_sound', h_e'⟩ := h'.error
  let arenas (i : Bool) : Arena := cond i arena arena'
  have h_sounds : ∀ i, (arenas i).Sound m := Bool.forall_bool.mpr ⟨h_sound', h_sound⟩
  have h_alike : Resolving.FailsAlike arenas fun _ => Resolving.definition m d :=
    Resolving.failsAlike_definitionWithin h_sounds fun i =>
      Arena.grants_of_towersInLimit h_limit (arenas i) d
  have h_error : Except.error f'.error = Except.error f.error :=
    h_e'.symm.trans (h_alike true false f.error h_e)
  exact Failure.eq_of_parts (h.definition.trans h'.definition.symm)
    (h.subject.trans h'.subject.symm) (Except.error.inj h_error).symm

/-- **One failure for a key.** -/
theorem RefusesMembers.unique (h : m.RefusesMembers config k f)
    (h' : m.RefusesMembers config k f') : f = f' := by
  obtain ⟨arena, id, h_sound, h_seeded, ⟨c, h_c, h_k⟩, h_e⟩ := h.error
  obtain ⟨arena', id', h_sound', h_seeded', ⟨c', h_c', h_k'⟩, h_e'⟩ := h'.error
  let arenas (i : Bool) : Arena := cond i arena arena'
  let owner (i : Bool) : ClassId := cond i id id'
  let classes (i : Bool) : ResolvedClass := cond i c c'
  have h_settled : Resolving.Settled m arenas :=
    ⟨Bool.forall_bool.mpr ⟨h_sound', h_sound⟩, Bool.forall_bool.mpr ⟨h_seeded', h_seeded⟩⟩
  have h_there : ∀ i, (arenas i).class? (owner i) = some (classes i) :=
    Bool.forall_bool.mpr ⟨h_c', h_c⟩
  have h_alike : Resolving.FailsAlike arenas fun i =>
      Resolving.complete m config.maxGenericDepth (owner i) :=
    Resolving.failsAlike_complete config.maxGenericDepth h_settled h_there
      (Bool.forall_bool.mpr ⟨h_k', h_k⟩)
  have h_error : Except.error f'.error = Except.error f.error :=
    h_e'.symm.trans (h_alike true false f.error h_e)
  exact Failure.eq_of_parts (h.definition.trans h'.definition.symm)
    (h.subject.trans h'.subject.symm) (Except.error.inj h_error).symm

end Metadata

namespace Resolver

variable {m : Metadata} {config : Config} {resolver final : Resolver} {v : Visit} {f : Failure}

/-- What a run has written down of definitions and of classes. -/
structure Diagnosed (m : Metadata) (config : Config) (resolver : Resolver) : Prop where
  sound : resolver.arena.Sound m
  creations : ∀ d f, resolver.failures[(FailureSite.creation d).code]? = some f →
    m.RefusesDefinition d f
  completions : ∀ d i f, resolver.failures[(FailureSite.completion d i).code]? = some f →
    ∃ k, resolver.arena.UnfoldsClass k ⟨i⟩ ∧ m.RefusesMembers config k f

theorem diagnosed_empty (m : Metadata) (config : Config) : Diagnosed m config .empty where
  sound := Arena.sound_empty m
  creations _ _ h_f := by cases Std.ExtTreeMap.getElem?_empty.symm.trans h_f
  completions _ _ _ h_f := by cases Std.ExtTreeMap.getElem?_empty.symm.trans h_f

/-- What an attempt writes down says how the step has failed. -/
theorem exists_error_of_attemptFailure? {α : Type} {step : Resolving α}
    {describe : Arena → Option Nat × String}
    (h : resolver.attemptFailure? step describe = some f) :
    ∃ e, Resolving.result step resolver.arena = .error e ∧
      f = ⟨(describe (Resolving.after step resolver.arena)).1,
        (describe (Resolving.after step resolver.arena)).2, e⟩ := by
  rw [attemptFailure?] at h
  split at h
  next => cases h
  next e h_e =>
    cases h
    exact ⟨e, h_e, rfl⟩

theorem refusesDefinition_of_failure? {d : Nat} (h : resolver.arena.Sound m)
    (h_f : failure? m config resolver (.definition d) = some f) : m.RefusesDefinition d f := by
  rw [failure?] at h_f
  obtain ⟨e, h_e, rfl⟩ := exists_error_of_attemptFailure? h_f
  exact ⟨rfl, rfl, _, h, h_e⟩

theorem refusesMembers_of_failure? {i : Nat} {k : KeyTerm} (h : resolver.arena.Sound m)
    (h_seeded : resolver.arena.Seeded m) (h_k : resolver.arena.UnfoldsClass k ⟨i⟩)
    (h_f : failure? m config resolver (.class i) = some f) : m.RefusesMembers config k f := by
  rw [failure?] at h_f
  obtain ⟨e, h_e, rfl⟩ := exists_error_of_attemptFailure? h_f
  obtain ⟨c, h_c, h_key⟩ := h_k
  refine ⟨?_, ?_, _, ⟨i⟩, h, h_seeded, ⟨c, h_c, h_key⟩, h_e⟩
  · rw [h_c]
    exact congrArg some h_key.1
  · -- the class keeps its key while its members are resolved
    have h_le := Resolving.grows_complete m config.maxGenericDepth ⟨i⟩ resolver.arena
    obtain ⟨c', h_c', h_key'⟩ := Arena.UnfoldsClass.mono h_le ⟨c, h_c, h_key⟩
    exact (Resolving.sound_complete _ h ⟨i⟩).classFullDisplay_eq h_c' h_key'

/-- **One visit.** Classes are visited when all definitions were. -/
theorem Diagnosed.make (h : Diagnosed m config resolver)
    (h_class : ∀ i, v = .class i → resolver.arena.Seeded m ∧ resolver.arena.HasClass ⟨i⟩) :
    Diagnosed m config (make m config resolver v) := by
  have h_le := le_make m config resolver v
  refine ⟨sound_make h.sound v, fun d f h_f => ?_, fun d i f h_f => ?_⟩
  · rcases getElem?_failures_make.mp h_f with ⟨h_new, h_site⟩ | ⟨-, h_old⟩
    · cases v with
      | definition d' =>
        cases FailureSite.code_inj.mp h_site
        exact refusesDefinition_of_failure? h.sound h_new
      | listing entry => cases FailureSite.code_inj.mp h_site
      | «class» i => cases FailureSite.code_inj.mp h_site
    · exact h.creations d f h_old
  · rcases getElem?_failures_make.mp h_f with ⟨h_new, h_site⟩ | ⟨-, h_old⟩
    · cases v with
      | definition d' => cases FailureSite.code_inj.mp h_site
      | listing entry => cases FailureSite.code_inj.mp h_site
      | «class» i' =>
        obtain ⟨-, rfl⟩ := FailureSite.completion.inj (FailureSite.code_inj.mp h_site)
        obtain ⟨h_seeded, h_has⟩ := h_class i' rfl
        obtain ⟨c, h_c⟩ := Arena.hasClass_iff.mp h_has
        obtain ⟨_, k, -, h_shows⟩ := h.sound.classes ⟨i'⟩ c h_c
        have h_k : resolver.arena.UnfoldsClass k ⟨i'⟩ := ⟨c, h_c, h_shows.key⟩
        exact ⟨k, h_k.mono h_le, refusesMembers_of_failure? h.sound h_seeded h_k h_new⟩
    · obtain ⟨k, h_k, h_refuses⟩ := h.completions d i f h_old
      exact ⟨k, h_k.mono h_le, h_refuses⟩

/-- Completing classes that are there, when all definitions were visited. -/
theorem Diagnosed.completeAll (h : Diagnosed m config resolver)
    (h_seeded : resolver.arena.Seeded m) (order : List Nat)
    (h_has : ∀ i ∈ order, resolver.arena.HasClass ⟨i⟩) :
    Diagnosed m config (order.foldl (completeClass m config.maxGenericDepth) resolver) := by
  induction order generalizing resolver with
  | nil => exact h
  | cons i order ih =>
    have h_le := le_completeClass m config.maxGenericDepth resolver i
    have h_next : Diagnosed m config (completeClass m config.maxGenericDepth resolver i) := by
      refine h.make (v := .class i) fun j h_j => ?_
      cases h_j
      exact ⟨h_seeded, h_has i List.mem_cons_self⟩
    exact ih h_next (h_seeded.mono h_le) fun j h_j =>
      (h_has j (List.mem_cons_of_mem i h_j)).mono h_le

/-- **All rounds**, by induction on them. -/
theorem Completes.diagnosed {n : Nat}
    (h : Completes m config.maxGenericDepth n resolver final)
    (h_diagnosed : Diagnosed m config resolver) (h_seeded : resolver.arena.Seeded m) :
    Diagnosed m config final := by
  induction h with
  | last => exact h_diagnosed
  | @round n order resolver final _ h_order _ ih =>
    refine ih (h_diagnosed.completeAll h_seeded order fun i h_i => ?_)
      (h_seeded.mono (le_foldl (le_completeClass m config.maxGenericDepth) order resolver))
    have h_range := List.mem_range'_1.mp (h_order.mem_iff.mp h_i)
    show i < resolver.arena.classes.size
    omega

/-- **Whole runs**, in any order. -/
theorem RunsTo.diagnosed (h_limit : m.ChainsInLimit) (h : RunsTo m config final) :
    Diagnosed m config final := by
  obtain ⟨seeds, listed, h_seeds, h_listed, h_rounds⟩ := h
  have h_definitions : Diagnosed m config (seeds.foldl (seed m) .empty) :=
    foldl_induction (fun _ d h => h.make (v := .definition d) fun _ h_class => by cases h_class)
      seeds (diagnosed_empty m config)
  have h_visited : Diagnosed m config (visit m config seeds listed) :=
    foldl_induction (fun _ entry h => h.make (v := .listing entry) fun _ h_class => by
      cases h_class) listed h_definitions
  exact h_rounds.diagnosed h_visited (progress_visit h_limit h_seeds h_listed).arena.seeded

/-- What is reported was written down somewhere, and belongs to the definition of the place. -/
theorem RunsTo.exists_site (h : RunsTo m config final) (h_f : f ∈ final.report.failures) :
    ∃ site : FailureSite, final.failures[site.code]? = some f ∧
      f.definition = site.definition? := by
  obtain ⟨visits, h_visits, rfl, -⟩ := exists_schedule h
  obtain ⟨⟨site, f⟩, h_written, rfl⟩ := List.mem_map.mp (h_visits.failures_perm.mem_iff.mp h_f)
  exact ⟨site, h_visits.getElem?_failures_iff.mpr ⟨site, h_written, rfl⟩,
    definition_of_mem_written h_written⟩

/-- What was written down is reported. -/
theorem RunsTo.mem_report (h : RunsTo m config final) {code : List Nat}
    (h_f : final.failures[code]? = some f) : f ∈ final.report.failures := by
  obtain ⟨visits, h_visits, rfl, -⟩ := exists_schedule h
  obtain ⟨site, h_written, -⟩ := h_visits.getElem?_failures_iff.mp h_f
  exact h_visits.failures_perm.mem_iff.mpr (List.mem_map.mpr ⟨(site, f), h_written, rfl⟩)

/-! ### Failures of two runs -/

section Runs

variable {less more : Config} {r r' : Resolver}

/-- A definition is written down in all runs within the limit or in none. -/
theorem creation_mem_iff (h_limit : m.ChainsInLimit) (h : RunsTo m less r) (h' : RunsTo m more r')
    {d : Nat} : (FailureSite.creation d).code ∈ r.failures ↔
      (FailureSite.creation d).code ∈ r'.failures := by
  obtain ⟨_, _, -, -, h_progress⟩ := exists_progress h_limit h
  obtain ⟨_, _, -, -, h_progress'⟩ := exists_progress h_limit h'
  rw [h_progress.uncreated, h_progress'.uncreated]

/-- What is written down of a definition is the same if the definitions are visited in order, or if
no tower is too high for any order. -/
theorem getElem?_creation_eq (h_limit : m.ChainsInLimit) (h : RunsTo m less r)
    (h' : RunsTo m more r')
    (h_order : m.TowersInLimit ∨ r = Resolver.empty.run m less ∧ r' = Resolver.empty.run m more)
    (d : Nat) : r.failures[(FailureSite.creation d).code]? =
      r'.failures[(FailureSite.creation d).code]? := by
  rcases h_order with h_towers | ⟨rfl, rfl⟩
  · have h_mem := creation_mem_iff h_limit h h' (d := d)
    rw [mem_failures_iff, mem_failures_iff] at h_mem
    refine Option.ext fun f => ⟨fun h_f => ?_, fun h_f => ?_⟩
    · obtain ⟨f', h_f'⟩ := h_mem.mp ⟨f, h_f⟩
      rwa [((h.diagnosed h_limit).creations d f h_f).unique h_towers
        ((h'.diagnosed h_limit).creations d f' h_f')]
    · obtain ⟨f', h_f'⟩ := h_mem.mpr ⟨f, h_f⟩
      rwa [((h'.diagnosed h_limit).creations d f h_f).unique h_towers
        ((h.diagnosed h_limit).creations d f' h_f')]
  · -- both runs begin with the same visits
    rw [getElem?_creation_of_visit (completes_run m less),
      getElem?_creation_of_visit (completes_run m more)]

/-- A class that cannot be completed is reported by every run that reaches its key, with the one
failure that there is for the key. -/
theorem mem_report_of_refuses (h_limit : m.ChainsInLimit) (h : RunsTo m config final) {k : KeyTerm}
    (h_k : m.Reaches config k) (h_f : m.RefusesMembers config k f) :
    f ∈ final.report.failures := by
  obtain ⟨arena, id, h_sound, h_seeded, ⟨c, h_c, h_key⟩, h_e⟩ := h_f.error
  rw [Resolving.complete_error_iff _ h_c] at h_e
  have h_none : (m.membersMeaning config k).value = none :=
    (Resolving.members_follows _ h_sound h_c h_key).fails h_seeded _ h_e
  -- so that the run has written something down for the key
  have h_uncompleted : some k ∈ final.outcome.uncompleted := by
    rw [outcome_of_runsTo h_limit h]
    exact ⟨k, h_k, h_none, rfl⟩
  obtain ⟨d, i, h_written, h_same⟩ := h_uncompleted
  obtain ⟨f', h_f'⟩ := mem_failures_iff.mp h_written
  obtain ⟨k', h_k', h_refuses⟩ := (h.diagnosed h_limit).completions d i f' h_f'
  rw [h.sound.keyOf?_eq h_k'] at h_same
  cases h_same
  rw [h_f.unique h_refuses]
  exact h.mem_report h_f'

/-- **What is reported of a class is reported with more to start from.** -/
theorem completion_reported (h_limit : m.ChainsInLimit)
    (h : RunsTo m { config with materialize := false } r)
    (h' : RunsTo m { config with materialize := true } r') {d i : Nat}
    (h_f : r.failures[(FailureSite.completion d i).code]? = some f) :
    f ∈ r'.report.failures := by
  obtain ⟨k, h_k, h_refuses⟩ := (h.diagnosed h_limit).completions d i f h_f
  obtain ⟨_, _, -, -, h_progress⟩ := exists_progress h_limit h
  have h_reaches := (h_progress.arena.reached k ⟨_, h_k⟩).materialize
  exact mem_report_of_refuses h_limit h' h_reaches
    ⟨h_refuses.definition, h_refuses.subject, h_refuses.error⟩

end Runs

end Resolver

/-! ### Two graphs -/

/-- All that one graph shows is shown by another one, with other ids. -/
structure TypeGraph.Within (graph graph' : TypeGraph) : Prop where
  /-- A class that is resolved is resolved there and stands for the same. -/
  classes : ∀ t : ClassTerm, t.members.isSome = true → graph.Shows t → graph'.Shows t
  /-- What is reported for a definition is reported there for the same thing. -/
  failures : ∀ f ∈ graph.report.failures, f.definition ≠ none →
    ∃ f' ∈ graph'.report.failures, f'.definition = f.definition ∧ f'.subject = f.subject
  /-- The modules are the same and list the same classes at the top, in the same order. -/
  modules : graph.images.map (fun image => (image.name, image.types.map graph.arena.keyOf?)) =
    graph'.images.map fun image => (image.name, image.types.map graph'.arena.keyOf?)
  /-- One graph has a view if the other one has. -/
  viewed : (∃ fuel infos, graph.viewWithin fuel = some infos) ↔
    ∃ fuel infos, graph'.viewWithin fuel = some infos
  /-- The views agree on the modules, too. -/
  views : ∀ fuel fuel' infos infos', graph.viewWithin fuel = some infos →
    graph'.viewWithin fuel' = some infos' →
      infos.map (fun info => (info.name, info.tops.map graph.arena.keyOf?)) =
        infos'.map fun info => (info.name, info.tops.map graph'.arena.keyOf?)

namespace Resolver

variable {m : Metadata} {config : Config} {resolver r r' : Resolver}

/-- The modules list the same classes at the top. -/
theorem modules_eq (h_limit : m.ChainsInLimit)
    (h : RunsTo m { config with materialize := false } r)
    (h' : RunsTo m { config with materialize := true } r') :
    (r.toGraph m).images.map (fun image => (image.name, image.types.map r.arena.keyOf?)) =
      (r'.toGraph m).images.map fun image => (image.name, image.types.map r'.arena.keyOf?) := by
  have h_top : (fun d => (r.topLevel? d).map r.arena.keyOf?) =
      fun d => (r'.topLevel? d).map r'.arena.keyOf? := by
    funext d
    exact Option.ext fun _ => (keyOf?_topLevel? h_limit h).trans (keyOf?_topLevel? h_limit h').symm
  rw [toGraph, toGraph, List.map_map, List.map_map]
  refine List.map_congr_left fun (row, index) _ => ?_
  show ((m.imageName index).getD "", (topsOf m r row).map r.arena.keyOf?) =
    ((m.imageName index).getD "", (topsOf m r' row).map r'.arena.keyOf?)
  rw [topsOf, topsOf, List.map_filterMap, List.map_filterMap, h_top]

/-- A view has the keys of the classes that modules list. -/
theorem map_keys_eq {fuel : Nat} {infos : List ImageInfo}
    (h : (resolver.toGraph m).viewWithin fuel = some infos) :
    infos.map (fun info => (info.name, info.tops.map resolver.arena.keyOf?)) =
      (resolver.toGraph m).images.map fun image =>
        (image.name, image.types.map resolver.arena.keyOf?) := by
  have h_listing := TypeGraph.map_listing_eq TypeGraph.resolved_of_mem_images h
  have h_keys := congrArg
    (List.map (Prod.map id (List.map resolver.arena.keyOf?))) h_listing
  rwa [List.map_map, List.map_map] at h_keys

/-- **Materialization only adds.** Let no chain of nested types be longer than what is followed at
once, and let one run leave the listed instantiations out and the other one resolve them, each in
any order; the sequential runs are two of these. Then the graph of the first is within that of the
second: classes stand for the same, down to the terms of their members, something is reported for
the same definitions under the same names, and modules have the same classes at the top. The second
graph has a view exactly if the first one has.

What is reported for a definition is then reported with the same error, too, if the runs are the
sequential ones, or in any order if no tower of declaring types is too high, that is, if there is no
definition around which more than so many types lie, named or not, up to one that nothing
declares. -/
theorem materialization_adds (m : Metadata) (config : Config) (h_limit : m.ChainsInLimit) :
    let less := { config with materialize := false }
    let more := { config with materialize := true }
    RunsTo m less (Resolver.empty.run m less) ∧ RunsTo m more (Resolver.empty.run m more) ∧
      ∀ r r', RunsTo m less r → RunsTo m more r' →
        (r.toGraph m).Within (r'.toGraph m) ∧
          ((m.TowersInLimit ∨ r = Resolver.empty.run m less ∧ r' = Resolver.empty.run m more) →
            ∀ f ∈ (r.toGraph m).report.failures, f.definition ≠ none →
              f ∈ (r'.toGraph m).report.failures) := by
  intro less more
  refine ⟨runsTo_run m less, runsTo_run m more, fun r r' h h' => ⟨⟨?_, ?_, ?_, ?_, ?_⟩, ?_⟩⟩
  · intro t _ h_t
    obtain ⟨lineage, h_reaches, h_traces, h_same⟩ := (shows_iff h_limit h).mp h_t
    exact (shows_iff h_limit h').mpr ⟨lineage, h_reaches.materialize, h_traces, h_same⟩
  · intro f h_f h_definition
    obtain ⟨site, h_site, h_same⟩ := h.exists_site h_f
    cases site with
    | creation d =>
      have h_refuses := (h.diagnosed h_limit).creations d f h_site
      obtain ⟨f', h_f'⟩ := mem_failures_iff.mp
        ((creation_mem_iff h_limit h h').mp (mem_failures_iff.mpr ⟨f, h_site⟩))
      have h_refuses' := (h'.diagnosed h_limit).creations d f' h_f'
      exact ⟨f', h'.mem_report h_f', h_refuses'.definition.trans h_refuses.definition.symm,
        h_refuses'.subject.trans h_refuses.subject.symm⟩
    | completion d i => exact ⟨f, completion_reported h_limit h h' h_site, rfl, rfl⟩
    | listed position => exact absurd h_same h_definition
  · exact modules_eq h_limit h h'
  · -- whether there is one can be read in the tables, which do not say what is materialized
    rw [exists_view_iff h_limit h, exists_view_iff h_limit h']
    exact Metadata.viewable_congr rfl
  · intro fuel fuel' infos infos' h_infos h_infos'
    calc infos.map (fun info => (info.name, info.tops.map r.arena.keyOf?))
      _ = (r.toGraph m).images.map fun image => (image.name, image.types.map r.arena.keyOf?) :=
        map_keys_eq h_infos
      _ = (r'.toGraph m).images.map fun image => (image.name, image.types.map r'.arena.keyOf?) :=
        modules_eq h_limit h h'
      _ = infos'.map fun info => (info.name, info.tops.map r'.arena.keyOf?) :=
        (map_keys_eq h_infos').symm
  · intro h_order f h_f h_definition
    obtain ⟨site, h_site, h_same⟩ := h.exists_site h_f
    cases site with
    | creation d =>
      rw [getElem?_creation_eq h_limit h h' h_order] at h_site
      exact h'.mem_report h_site
    | completion d i => exact completion_reported h_limit h h' h_site
    | listed position => exact absurd h_same h_definition

/-- The first definition of `boxedListed` has lost its field, so that nothing but the tables asks
for the instantiation. The failure of the definition is reported either way, and there is a view. -/
theorem materialization_adds_boxed :
    let m := Metadata.boxedListed.withRanges 0 ⟨1, 1, 0, 0, 0, 0⟩
    let less := { Config.minimal with materialize := false }
    let more := { Config.minimal with materialize := true }
    let failure : Failure := ⟨some 0, "T", .unresolved (.members .field 1 2 1)⟩
    (TypeGraph.build m less).report = ⟨[failure], 1, 0, 0⟩ ∧
      (TypeGraph.build m more).report = ⟨[failure], 2, 1, 0⟩ ∧
        (TypeGraph.build m less).view?.isSome = true ∧
          (TypeGraph.build m less).Within (TypeGraph.build m more) ∧
            failure ∈ (TypeGraph.build m more).report.failures := by
  intro m less more failure
  obtain ⟨h_less, h_view⟩ : (TypeGraph.build m less).report = ⟨[failure], 1, 0, 0⟩ ∧
      (TypeGraph.build m less).view?.isSome = true := by
    have h_run : empty.run m less = completeRange m 4 0 2 (empty.start m less) :=
      run_of_one_round (by decide +kernel) (by decide +kernel)
    rw [TypeGraph.build, h_run]
    decide +kernel
  have h_more : (TypeGraph.build m more).report = ⟨[failure], 2, 1, 0⟩ := by
    have h_run : empty.run m more = completeRange m 4 0 3 (empty.start m more) :=
      run_of_one_round (by decide +kernel) (by decide +kernel)
    rw [TypeGraph.build, h_run]
    decide +kernel
  obtain ⟨h, h', h_adds⟩ := materialization_adds m .minimal
    (Metadata.chainsInLimit_of_size_le (by decide))
  obtain ⟨h_within, h_same⟩ := h_adds _ _ h h'
  refine ⟨h_less, h_more, h_view, h_within,
    h_same (.inr ⟨rfl, rfl⟩) failure ?_ (Option.some_ne_none 0)⟩
  show failure ∈ (TypeGraph.build m less).report.failures
  rw [h_less]
  exact List.mem_singleton_self failure

end Resolver
end GlobalMetadata
