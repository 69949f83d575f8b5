import GlobalMetadata.Proofs.OrderIndependence
import GlobalMetadata.Proofs.Report
import GlobalMetadata.Proofs.Traversal

/-!
# What is reported is left out

A report should not list anything that is there all the same.

* A class whose completion is reported has no members, and a graph shows such a class nowhere: not
  among its classes, not under its path, not as a top-level type, and not inside a rendered tree
  (`TypeGraph.omits_of_unresolved`).
* A definition whose creation is reported has no class, unless its chain is too long
  (`Resolver.find?_of_creation`). If the chain is too long, the visit that is refused comes
  too early: once the types around the definition are there, it is created for the sake of a type
  inside it, and what was written down before stays (`Resolver.exists_belied`).
-/

namespace GlobalMetadata

/-! ### Listings of a graph -/

namespace TypeGraph

variable {graph : TypeGraph} {id : ClassId}

/-- A class is shown nowhere. -/
structure Omits (graph : TypeGraph) (id : ClassId) : Prop where
  classes : ∀ c, (id, c) ∉ graph.classes
  find? : ∀ qualifiedName, graph.find? qualifiedName ≠ some id
  instantiationsOf : ∀ definition, id ∉ graph.instantiationsOf definition
  images : ∀ image ∈ graph.images, id ∉ image.types
  /-- No class with members leads to it, whether or not that one can be rendered. -/
  inside : ∀ top, graph.Resolved top → ¬ graph.LeadsTo top id
  /-- In what is rendered, it is neither a top-level type nor nested in another one. -/
  view : ∀ fuel infos, graph.viewWithin fuel = some infos →
    ∀ info ∈ infos, ∀ tree ∈ info.types, ¬ tree.Contains id
  /-- Nor nested in any class that a caller asks for. -/
  tree : ∀ fuel top tree, graph.typeInfoWithin fuel top = some (some tree) → ¬ tree.Contains id

theorem resolved_of_mem_classes {c : ResolvedClass} (h : (id, c) ∈ graph.classes) :
    graph.Resolved id := by
  obtain ⟨h_mem, h_resolved⟩ := List.mem_filter.mp h
  obtain ⟨⟨c', index⟩, h_at, h_same⟩ := List.mem_map.mp h_mem
  -- the id of an entry is its position
  cases h_same
  refine ⟨c, ?_, h_resolved⟩
  have h_get := List.mem_zipIdx_iff_getElem?.mp h_at
  exact Array.getElem?_toList.symm.trans h_get

theorem resolved_of_topLevel? {resolver : Resolver} {definition : Nat}
    (h : resolver.topLevel? definition = some id) (m : Metadata) :
    (resolver.toGraph m).Resolved id := by
  obtain ⟨id', -, h⟩ := Option.bind_eq_some_iff.mp h
  obtain ⟨c, h_c, h⟩ := Option.bind_eq_some_iff.mp h
  split at h
  next h_shown =>
    cases h
    exact ⟨c, h_c, (Bool.and_eq_true_iff.mp h_shown).1⟩
  next => cases h

/-- Modules list nothing but classes with members. -/
theorem resolved_of_mem_images {m : Metadata} {resolver : Resolver} :
    ∀ entry ∈ (resolver.toGraph m).images, ∀ top ∈ entry.types,
      (resolver.toGraph m).Resolved top := by
  intro entry h_entry top h_top
  obtain ⟨⟨row, index⟩, -, rfl⟩ := List.mem_map.mp h_entry
  obtain ⟨definition, -, h_top⟩ := List.mem_filterMap.mp h_top
  exact resolved_of_topLevel? h_top m

/-- **A class without members is shown nowhere.** -/
theorem omits_of_unresolved {m : Metadata} {resolver : Resolver}
    (h : ¬ (resolver.toGraph m).Resolved id) : (resolver.toGraph m).Omits id where
  classes _ h_mem := h (resolved_of_mem_classes h_mem)
  find? qualifiedName h_found := by
    obtain ⟨⟨id', c⟩, h_first, rfl⟩ := Option.map_eq_some_iff.mp h_found
    exact h (resolved_of_mem_classes (List.mem_of_find?_eq_some h_first))
  instantiationsOf definition h_mem := by
    obtain ⟨⟨id', c⟩, h_class, rfl⟩ := List.mem_map.mp h_mem
    exact h (resolved_of_mem_classes (List.mem_filter.mp h_class).1)
  images image h_image h_mem := h (resolved_of_mem_images image h_image id h_mem)
  inside _ h_top h_leads := h (resolved_of_leadsTo h_top h_leads)
  view _ _ h_infos info h_info tree h_tree h_contains := by
    obtain ⟨image, h_image⟩ := List.mem_iff_getElem?.mp h_info
    obtain ⟨_, top, -, -, h_top, h_leads⟩ :=
      (renders_iff_exposes h_infos).mp ⟨info, tree, h_image, h_tree, h_contains⟩
    exact h (resolved_of_leadsTo h_top h_leads)
  tree _ _ _ h_tree h_contains := by
    obtain ⟨rfl, h_top, h_follows⟩ := follows_of_typeInfo h_tree
    exact h (resolved_of_leadsTo h_top (h_follows.path h_contains))

end TypeGraph

/-! ### Definitions that are reported -/

/-- The chain of a definition is longer than what is followed at once. -/
def Metadata.TooLong (m : Metadata) (definition : Nat) : Prop :=
  ∃ lineage, m.Traces definition lineage ∧ declaringLimit + 1 < lineage.length

namespace Resolver

variable {m : Metadata} {config : Config} {resolver : Resolver} {visits : List Visit} {d : Nat}

/-- A definition is written down only if it has no chain, or one that is too long. -/
theorem tooLong_of_creation
    (h : (FailureSite.creation d).code ∈ (stateAfter m config visits).failures) {lineage : Lineage}
    (h_traces : m.Traces d lineage) : m.TooLong d := by
  induction visits with
  | nil => exact absurd h Std.ExtTreeMap.not_mem_empty
  | cons v visits ih =>
    rcases mem_failures_make.mp h with h | ⟨h_site, h_failure⟩
    · exact ih h
    · cases v with
      | definition d' =>
        obtain rfl := FailureSite.creation.inj (FailureSite.code_inj.mp h_site)
        refine ⟨lineage, h_traces, Nat.lt_of_not_le fun h_length => h_failure ?_⟩
        -- a short chain would have been followed to its end
        have h_sound : (stateAfter m config visits).arena.Sound m := sound_stateAfter visits
        rw [failure?, attemptFailure?_eq_none_iff]
        exact (Resolving.definitionWithin_succeeds_iff h_sound).mpr
          ⟨lineage, h_traces, Arena.inReach_of_length_le h_length⟩
      | listing entry => cases FailureSite.code_inj.mp h_site
      | «class» i => cases FailureSite.code_inj.mp h_site

/-- **A definition that is reported has no class**, neither its own nor an instantiation, unless its
chain is too long. -/
theorem find?_of_creation
    (h : (FailureSite.creation d).code ∈ (stateAfter m config visits).failures) {key : ClassKey}
    (h_key : key.definition = d) :
    (stateAfter m config visits).arena.find? key = none ∨ m.TooLong d := by
  cases h_found : (stateAfter m config visits).arena.find? key with
  | none => exact .inl rfl
  | some id =>
    -- a class there shows that the definition has a chain
    have h_sound : (stateAfter m config visits).arena.Sound m := sound_stateAfter visits
    obtain ⟨c, h_c, rfl⟩ := Arena.find?_eq_some_iff.mp h_found
    obtain ⟨lineage, k, h_traces, h_shows⟩ := h_sound.classes id c h_c
    have h_same : k.definition = d := h_shows.key.1.symm.trans h_key
    exact .inr (tooLong_of_creation h (h_same ▸ h_traces))

/-- **A class that is reported is left out.** -/
theorem Schedule.omits_of_completion (h : Schedule m config visits)
    (h_all : visits.Perm (agenda m config (stateAfter m config visits).arena.classes.size))
    {i : Nat}
    (h_mem : (FailureSite.completion d i).code ∈ (stateAfter m config visits).failures) :
    ∃ c, (stateAfter m config visits).arena.class? ⟨i⟩ = some c ∧ c.definition = d ∧
      c.isResolved = false ∧ ((stateAfter m config visits).toGraph m).Omits ⟨i⟩ := by
  rcases h.sites_accounted h_mem with ⟨_, -, h_site⟩ | ⟨id, c, h_c, h_site⟩ | ⟨_, -, h_site⟩
  · cases FailureSite.code_inj.mp h_site
  · obtain ⟨rfl, rfl⟩ := FailureSite.completion.inj (FailureSite.code_inj.mp h_site)
    -- a class with members would not have been written down
    rcases h.classes_accounted h_all h_c with ⟨-, h_none⟩ | ⟨h_bare, -⟩
    · rw [mem_failures_iff, h_none] at h_mem
      obtain ⟨_, h_some⟩ := h_mem
      cases h_some
    · refine ⟨c, h_c, rfl, h_bare, TypeGraph.omits_of_unresolved ?_⟩
      rintro ⟨c', h_c', h_resolved⟩
      cases h_c.symm.trans h_c'
      rw [h_bare] at h_resolved
      cases h_resolved
  · cases FailureSite.code_inj.mp h_site

/-! ### A definition that is reported and there -/

/-- If the class of a nested definition is there, so is that of the definition around it. -/
theorem exists_find?_of_inner {e : Nat} {inner lineage : Lineage} {id : ClassId}
    (h : resolver.arena.Sound m) (h_inner : m.Traces e inner)
    (h_outer : inner.outer? = some lineage)
    (h_found : resolver.arena.find? (.ofDefinition e) = some id) :
    ∃ id, resolver.arena.find? (.ofDefinition lineage.frame.definition) = some id := by
  obtain ⟨c, inner', -, -, h_inner', h_shows⟩ := h.shows_of_definition h_found
  -- a class keeps the id of the class around it
  have h_encloses := h_shows.declaring
  rw [h_inner'.unique h_inner, h_outer] at h_encloses
  generalize c.declaring = declaring at h_encloses
  cases h_encloses with
  | nested h_around => exact ⟨_, h_around⟩

/-- **Too early.** If a definition with too long a chain is visited first, then the types around it
from the outside, and then a definition inside it, it is written down and there all the same. -/
theorem belied_seeds {e : Nat} {inner lineage around : Lineage} (h_inner : m.Traces e inner)
    (h_outer : inner.outer? = some lineage) (h_around : lineage.outer? = some around)
    (h_traces : m.Traces d lineage) (h_long : declaringLimit + 1 < lineage.length)
    (h_nodup : (e :: d :: around.definitions).Nodup) :
    let last := (d :: (around.definitions.reverse ++ [e])).foldl (seed m) .empty
    (FailureSite.creation d).code ∈ last.failures ∧
      ∃ id, last.arena.find? (.ofDefinition d) = some id := by
  intro last
  have h_empty : Resolver.empty.arena.Sound m := Arena.sound_empty m
  obtain ⟨h_e, h_nodup⟩ := List.nodup_cons.mp h_nodup
  obtain ⟨h_d, -⟩ := List.nodup_cons.mp h_nodup
  constructor
  · -- the first visit is refused, and the others do not take that back
    have h_others : d ∉ around.definitions.reverse ++ [e] := by
      rw [List.mem_append, List.mem_reverse, List.mem_singleton]
      rintro (h_mem | rfl)
      · exact h_d h_mem
      · exact h_e List.mem_cons_self
    exact (creation_mem_seeds h_others).mpr (creation_mem_of_long h_traces h_long)
  · -- what is around is there when the definition inside is visited
    let before := around.definitions.reverse.foldl (seed m) (seed m .empty d)
    have h_sound : before.arena.Sound m := sound_seeds (sound_seed h_empty d) _
    have h_there : ∃ id, before.arena.find? (.ofDefinition around.frame.definition) = some id :=
      find?_seeds_of_traces (sound_seed h_empty d) (h_traces.outer h_around)
    have h_reach : before.arena.InReach (declaringLimit + 1) inner := by
      refine .inr fun _ h_some => ?_
      cases h_outer.symm.trans h_some
      refine inReach_of_around 63 fun _ h_some => ?_
      cases h_around.symm.trans h_some
      exact h_there
    obtain ⟨⟨id, h_id⟩, -⟩ := find?_seed_of_inReach h_sound h_inner h_reach
    have h_last : last = seed m before e := by
      show List.foldl _ _ _ = _
      rw [List.foldl_cons, List.foldl_append]
      rfl
    rw [h_last, ← h_traces.frame_definition]
    exact exists_find?_of_inner (sound_seed h_sound e) h_inner h_outer h_id

/-- **A report that is wrong.** If another definition is nested in one with too long a chain, some
run reports the one around as missing, although its class is there. -/
theorem exists_belied (config : Config) {e : Nat} {inner lineage : Lineage}
    (h_inner : m.Traces e inner) (h_outer : inner.outer? = some lineage)
    (h_long : declaringLimit + 1 < lineage.length) :
    ∃ final id, RunsTo m config final ∧
      (FailureSite.creation lineage.frame.definition).code ∈ final.failures ∧
      final.arena.find? (.ofDefinition lineage.frame.definition) = some id := by
  have h_traces := h_inner.outer h_outer
  obtain ⟨around, h_around⟩ : ∃ around, lineage.outer? = some around := by
    cases lineage with
    | top namespaceName frame =>
      have h_one : (Lineage.top namespaceName frame).length = 1 := rfl
      rw [h_one] at h_long
      exact absurd h_long (by decide)
    | nested frame around => exact ⟨around, rfl⟩
  -- the visits that come first, in the order that matters
  have h_definitions : inner.definitions = e :: lineage.frame.definition :: around.definitions := by
    rw [h_inner.definitions_eq h_outer, h_traces.definitions_eq h_around]
  have h_nodup := h_inner.definitions_nodup
  rw [h_definitions] at h_nodup
  let first := lineage.frame.definition :: (around.definitions.reverse ++ [e])
  have h_perm : first.Perm inner.definitions := by
    rw [h_definitions]
    exact ((List.perm_append_comm.trans (.cons e (List.reverse_perm _))).cons _).trans (.swap _ _ _)
  have h_first := h_perm.nodup_iff.mpr h_inner.definitions_nodup
  obtain ⟨rest, h_all⟩ := exists_seeds h_first fun i h_i => by
    obtain ⟨_, h_traces', -⟩ := h_inner.exists_of_mem (h_perm.mem_iff.mp h_i)
    exact h_traces'.lt_size
  obtain ⟨final, h_final⟩ := exists_completes m config (first ++ rest) (m.listings config)
  obtain ⟨h_refused, id, h_id⟩ :=
    belied_seeds h_inner h_outer h_around h_traces h_long h_nodup
  -- neither the failure nor the class goes away in the rest of the run
  refine ⟨final, id, ⟨_, _, h_all, .refl _, h_final⟩, ?_, ?_⟩
  · have h_rest : lineage.frame.definition ∉ rest :=
      List.disjoint_of_nodup_append (h_all.nodup_iff.mpr List.nodup_range) List.mem_cons_self
    refine (mem_uncreated_iff h_final).mpr ?_
    rw [List.foldl_append, creation_mem_seeds h_rest]
    exact h_refused
  · refine Arena.find?_mono (le_trans ?_ h_final.le) h_id
    rw [visit, List.foldl_append]
    exact le_trans (le_foldl (le_seed m) rest _) (le_foldl (le_seedListed m _) _ _)

/-- **Reports are truthful**, with one exception. The run of the program is one of the runs in any
order. Whatever a run reports as missing is missing, unless it is a definition whose chain is too
long; and if another definition is nested in such a one, some run is wrong about it. -/
theorem failures_truthful (m : Metadata) (config : Config) :
    RunsTo m config (Resolver.empty.run m config) ∧
      (∀ final, RunsTo m config final →
        (∀ d, (FailureSite.creation d).code ∈ final.failures →
          ∀ key, key.definition = d → final.arena.find? key = none ∨ m.TooLong d) ∧
        ∀ d i, (FailureSite.completion d i).code ∈ final.failures →
          ∃ c, final.arena.class? ⟨i⟩ = some c ∧ c.definition = d ∧ c.isResolved = false ∧
            (final.toGraph m).Omits ⟨i⟩) ∧
      ∀ e inner lineage, m.Traces e inner → inner.outer? = some lineage →
        declaringLimit + 1 < lineage.length →
        ∃ final id, RunsTo m config final ∧
          (FailureSite.creation lineage.frame.definition).code ∈ final.failures ∧
          final.arena.find? (.ofDefinition lineage.frame.definition) = some id := by
  refine ⟨runsTo_run m config, fun final h_final => ?_, fun e inner lineage => exists_belied config⟩
  obtain ⟨visits, h_visits, rfl, h_all⟩ := exists_schedule h_final
  exact ⟨fun _ h_mem _ h_key => find?_of_creation h_mem h_key,
    fun _ _ h_mem => h_visits.omits_of_completion h_all h_mem⟩

end Resolver

end GlobalMetadata
