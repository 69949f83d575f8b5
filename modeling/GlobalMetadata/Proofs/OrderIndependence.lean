import GlobalMetadata.Proofs.Nest
import GlobalMetadata.Proofs.Progress

/-!
# When the order does not matter

All runs have the same outcome, in whatever order they make their visits, exactly if no chain of
nested types is longer than what is followed at once.

* If no chain is too long, every run comes to what the metadata says (`Resolver.outcome_of_runsTo`):
  by then the keys that are there are those that a run comes to, and everything that was written
  down is read off their meaning.
* If a chain is too long, its innermost definition is refused when it is visited first, and granted
  when the chain is visited from the outside (`Resolver.exists_runs_of_long`).
-/

namespace GlobalMetadata

/-! ### Short chains -/

namespace Resolver

section Over

variable {m : Metadata} {config : Config} {resolver : Resolver} {listed : List (Nat × Nat)}
  {done : List (Nat × KeyTerm)}

/-- A class was completed under the key that it has. -/
theorem Progress.mem_done (h : Progress m config listed done resolver)
    (h_done : (done.map Prod.fst).Perm (List.range resolver.arena.classes.size)) {id : ClassId}
    {k : KeyTerm} (h_k : resolver.arena.UnfoldsClass k id) : (id.index, k) ∈ done := by
  obtain ⟨c, h_c, h_key⟩ := h_k
  have h_has : id.index < resolver.arena.classes.size := Arena.hasClass_iff.mpr ⟨c, h_c⟩
  have h_mem := h_done.mem_iff.mpr (List.mem_range.mpr h_has)
  -- the class was completed, under one key, which is the one it has
  obtain ⟨⟨i, k'⟩, h_p, h_i⟩ := List.mem_map.mp h_mem
  obtain rfl : i = id.index := h_i
  obtain ⟨c', h_c', h_key'⟩ := h.arena.classes _ h_p
  rw [h_c] at h_c'
  cases h_c'
  rwa [h_key.unique h_key']

/-- **Everything that a run comes to is there.** -/
theorem Progress.holds_iff (h : Progress m config listed done resolver)
    (h_listed : listed.Perm (m.listings config))
    (h_done : (done.map Prod.fst).Perm (List.range resolver.arena.classes.size)) {k : KeyTerm} :
    resolver.arena.Holds k ↔ m.Reaches config k := by
  refine ⟨h.arena.reached k, fun h_k => ?_⟩
  -- by induction on how a run comes to the key
  induction h_k with
  | definition h_traces =>
    obtain ⟨id, h_id⟩ := h.arena.seeded _ _ h_traces
    exact Arena.holds_of_find? h_id (Arena.unfoldsKey_ofDefinition.mpr rfl)
  | listed h_entry h_k => exact h.arena.listedMet _ (h_listed.mem_iff.mpr h_entry) _ h_k
  | member _ h_k ih =>
    obtain ⟨id, h_class⟩ := ih
    exact h.arena.doneMet _ (h.mem_done h_done h_class) _ h_k

/-- A class is what the metadata says about its key. -/
theorem Progress.classTerm?_eq (h : Progress m config listed done resolver)
    (h_done : (done.map Prod.fst).Perm (List.range resolver.arena.classes.size)) {id : ClassId}
    {c : ResolvedClass} (h_c : resolver.arena.class? id = some c) {k : KeyTerm}
    (h_k : resolver.arena.UnfoldsKey k c.key) :
    ∃ lineage, m.Traces k.definition lineage ∧
      resolver.arena.classTerm? c = some (m.classTerm config k lineage) := by
  obtain ⟨lineage, h_traces, h_shows⟩ := h.arena.sound.shows_of_key h_c h_k
  have h_members := h.arena.completed _ (h.mem_done h_done ⟨c, h_c, h_k⟩) c h_c
  exact ⟨lineage, h_traces, h_shows.classTerm?_eq h.arena.sound h_members⟩

/-- No key was completed twice. -/
theorem Progress.keys_nodup (h : Progress m config listed done resolver)
    (h_done : (done.map Prod.fst).Nodup) : (done.map Prod.snd).Nodup := by
  refine (List.Nodup.of_map Prod.fst h_done).map_on fun p h_p q h_q h_same => ?_
  obtain ⟨c, h_c, h_k⟩ := h.arena.classes p h_p
  obtain ⟨c', h_c', h_k'⟩ := h.arena.classes q h_q
  rw [← h_same] at h_k'
  -- one key has one class
  have h_id := Arena.eq_of_key h_c h_c' (h_k.inj h_k')
  exact Prod.ext (congrArg ClassId.index h_id) h_same

/-- What was cut off is what was cut off for each key that a run comes to. -/
theorem Progress.truncated_eq (h : Progress m config listed done resolver)
    (h_listed : listed.Perm (m.listings config))
    (h_done : (done.map Prod.fst).Perm (List.range resolver.arena.classes.size)) :
    resolver.arena.truncated = (m.outcome config).truncated := by
  classical
  have h_nodup := h.keys_nodup (h_done.nodup_iff.mpr List.nodup_range)
  -- the keys that a run comes to are those that were completed
  have h_keys : {k | m.Reaches config k} = ((done.map Prod.snd).toFinset : Set KeyTerm) := by
    ext k
    show m.Reaches config k ↔ _
    rw [Finset.mem_coe, List.mem_toFinset, ← h.holds_iff h_listed h_done]
    constructor
    · rintro ⟨id, h_class⟩
      exact List.mem_map_of_mem (f := Prod.snd) (h.mem_done h_done h_class)
    · intro h_k
      obtain ⟨p, h_p, rfl⟩ := List.mem_map.mp h_k
      exact ⟨_, h.arena.classes p h_p⟩
  have h_sum : ∑ᶠ k ∈ {k | m.Reaches config k}, (m.membersMeaning config k).cuts =
      (done.map fun p => (m.membersMeaning config p.2).cuts).sum := by
    rw [h_keys, finsum_mem_coe_finset, List.sum_toFinset _ h_nodup, List.map_map]
    rfl
  rw [Metadata.outcome, h_sum, h.truncated, (h_listed.map _).sum_eq]

/-- There is one class for each key that a run comes to, and it is what the metadata says. -/
theorem Progress.classes_eq (h : Progress m config listed done resolver)
    (h_listed : listed.Perm (m.listings config))
    (h_done : (done.map Prod.fst).Perm (List.range resolver.arena.classes.size)) :
    resolver.outcome.classes = (m.outcome config).classes := by
  ext o
  constructor
  · rintro ⟨id, c, h_c, rfl⟩
    obtain ⟨_, k, -, h_shows⟩ := h.arena.sound.classes id c h_c
    obtain ⟨lineage, h_traces, h_term⟩ := h.classTerm?_eq h_done h_c h_shows.key
    have h_reaches := h.arena.reached k ⟨id, c, h_c, h_shows.key⟩
    exact ⟨k, lineage, h_reaches, h_traces, h_term⟩
  · rintro ⟨k, lineage, h_k, h_traces, rfl⟩
    obtain ⟨id, c, h_c, h_key⟩ := (h.holds_iff h_listed h_done).mpr h_k
    obtain ⟨lineage', h_traces', h_term⟩ := h.classTerm?_eq h_done h_c h_key
    obtain rfl := h_traces.unique h_traces'
    exact ⟨id, c, h_c, h_term.symm⟩

/-- The classes whose members were not resolved are those that are meant to have none. -/
theorem Progress.uncompleted_eq (h : Progress m config listed done resolver)
    (h_listed : listed.Perm (m.listings config))
    (h_done : (done.map Prod.fst).Perm (List.range resolver.arena.classes.size)) :
    resolver.outcome.uncompleted = (m.outcome config).uncompleted := by
  ext o
  constructor
  · rintro ⟨d, i, h_log, rfl⟩
    obtain ⟨p, h_p, rfl, -, h_none⟩ := (h.uncompleted d i).mp h_log
    have h_class := h.arena.classes p h_p
    exact ⟨p.2, h.arena.reached p.2 ⟨_, h_class⟩, h_none, h.arena.sound.keyOf?_eq h_class⟩
  · rintro ⟨k, h_k, h_none, rfl⟩
    obtain ⟨id, h_class⟩ := (h.holds_iff h_listed h_done).mpr h_k
    have h_log := (h.uncompleted k.definition id.index).mpr
      ⟨_, h.mem_done h_done h_class, rfl, rfl, h_none⟩
    exact ⟨k.definition, id.index, h_log, (h.arena.sound.keyOf?_eq h_class).symm⟩

/-- The listings that were not resolved are those without a meaning. -/
theorem Progress.unlisted_eq (h : Progress m config listed done resolver)
    (h_listed : listed.Perm (m.listings config)) :
    resolver.outcome.unlisted = (m.outcome config).unlisted := by
  ext i
  refine (h.unlisted i).trans ⟨?_, ?_⟩
  · rintro ⟨entry, h_entry, h_none, h_i⟩
    exact ⟨entry, h_listed.mem_iff.mp h_entry, h_none, h_i⟩
  · rintro ⟨entry, h_entry, h_none, h_i⟩
    exact ⟨entry, h_listed.mem_iff.mpr h_entry, h_none, h_i⟩

/-- **When everything was visited**, a run has come to what it should. -/
theorem Progress.outcome_eq (h : Progress m config listed done resolver)
    (h_listed : listed.Perm (m.listings config))
    (h_done : (done.map Prod.fst).Perm (List.range resolver.arena.classes.size)) :
    resolver.outcome = m.outcome config :=
  Outcome.ext (h.classes_eq h_listed h_done) (Set.ext h.uncreated)
    (h.uncompleted_eq h_listed h_done) (h.unlisted_eq h_listed) (h.truncated_eq h_listed h_done)

/-- Before the rounds: all definitions were visited first, and then the listings. -/
theorem progress_visit (h_limit : m.ChainsInLimit) {seeds : List Nat} {listed : List (Nat × Nat)}
    (h_seeds : seeds.Perm (List.range m.typeDefinitions.size))
    (h_listed : listed.Perm (m.listings config)) :
    Progress m config listed.reverse [] (visit m config seeds listed) := by
  have h_seeded : Progress m config [] [] (seeds.foldl (seed m) .empty) :=
    (seeding_seeds h_limit seeds).progress fun d => by
      rw [List.mem_reverse, h_seeds.mem_iff, List.mem_range]
  have h_visited := foldl_collect (P := fun listed => Progress m config listed []) listed
    (fun _ _ entry h_entry h => h.seedListed (h_listed.mem_iff.mp h_entry)) h_seeded
  rwa [List.append_nil] at h_visited

/-- If no chain is too long, every run has visited everything in the end. -/
theorem exists_progress (h_limit : m.ChainsInLimit) {final : Resolver}
    (h : RunsTo m config final) : ∃ listed done, listed.Perm (m.listings config) ∧
      (done.map Prod.fst).Perm (List.range final.arena.classes.size) ∧
        Progress m config listed done final := by
  obtain ⟨seeds, listed, h_seeds, h_listed, h_rounds⟩ := h
  obtain ⟨done, h_done, h_final⟩ :=
    h_rounds.progress (progress_visit h_limit h_seeds h_listed) (.refl _)
  exact ⟨listed.reverse, done, (List.reverse_perm listed).trans h_listed, h_done, h_final⟩

/-- **If no chain is too long**, every run comes to what the metadata says. -/
theorem outcome_of_runsTo (h_limit : m.ChainsInLimit) {final : Resolver}
    (h : RunsTo m config final) : final.outcome = m.outcome config := by
  obtain ⟨listed, done, h_listed, h_done, h_final⟩ := exists_progress h_limit h
  exact h_final.outcome_eq h_listed h_done

end Over

/-! ### Long chains -/

section Long

variable {m : Metadata} {config : Config} {resolver final : Resolver} {d : Nat}

/-- Nothing but the visit of a definition writes the definition down. -/
theorem creation_mem_seed {other : Nat} (h_other : d ≠ other) :
    (FailureSite.creation d).code ∈ (seed m resolver other).failures ↔
      (FailureSite.creation d).code ∈ resolver.failures := by
  rw [seed]
  exact mem_failures_attempt_of_ne _ _ _ _ fun h_same => h_other (FailureSite.creation.inj h_same)

theorem creation_mem_seeds {others : List Nat} (h_others : d ∉ others) :
    (FailureSite.creation d).code ∈ (others.foldl (seed m) resolver).failures ↔
      (FailureSite.creation d).code ∈ resolver.failures := by
  induction others generalizing resolver with
  | nil => exact Iff.rfl
  | cons other others ih =>
    obtain ⟨h_other, h_others⟩ := List.ne_and_not_mem_of_not_mem_cons h_others
    exact (ih h_others).trans (creation_mem_seed h_other)

/-- What is written down of a definition is settled when all of them were visited. -/
theorem getElem?_creation_of_completes {n : Nat}
    (h : Completes m config.maxGenericDepth n resolver final) :
    final.failures[(FailureSite.creation d).code]? =
      resolver.failures[(FailureSite.creation d).code]? := by
  induction h with
  | last => rfl
  | @round n order resolver final _ _ _ ih =>
    refine ih.trans (foldl_induction (P := fun r => r.failures[(FailureSite.creation d).code]? =
      resolver.failures[(FailureSite.creation d).code]?) (fun r i h => ?_) order rfl)
    have h_site : (Visit.site r.arena (.class i)).code ≠ (FailureSite.creation d).code :=
      mt FailureSite.code_inj.mp (by simp [Visit.site])
    exact (getElem?_failures_make_of_ne h_site).trans h

/-- What a run writes down of a definition is what was written down when all of them were
visited. -/
theorem getElem?_creation_of_visit {seeds : List Nat} {listed : List (Nat × Nat)} {n : Nat}
    (h : Completes m config.maxGenericDepth n (visit m config seeds listed) final) :
    final.failures[(FailureSite.creation d).code]? =
      (seeds.foldl (seed m) .empty).failures[(FailureSite.creation d).code]? := by
  refine (getElem?_creation_of_completes h).trans (foldl_induction
    (P := fun r => r.failures[(FailureSite.creation d).code]? =
      (seeds.foldl (seed m) .empty).failures[(FailureSite.creation d).code]?)
    (fun r entry h => ?_) listed rfl)
  have h_site : (Visit.site r.arena (.listing entry)).code ≠ (FailureSite.creation d).code :=
    mt FailureSite.code_inj.mp (by simp [Visit.site])
  exact (getElem?_failures_make_of_ne h_site).trans h

/-- A definition is written down by a run exactly if it was when all definitions were visited. -/
theorem mem_uncreated_iff {seeds : List Nat} {listed : List (Nat × Nat)} {n : Nat}
    (h : Completes m config.maxGenericDepth n (visit m config seeds listed) final) :
    d ∈ final.outcome.uncreated ↔
      (FailureSite.creation d).code ∈ (seeds.foldl (seed m) .empty).failures := by
  show (FailureSite.creation d).code ∈ final.failures ↔ _
  rw [Std.ExtTreeMap.mem_iff_isSome_getElem?, getElem?_creation_of_visit h,
    ← Std.ExtTreeMap.mem_iff_isSome_getElem?]

/-- **Too long a chain.** A definition is refused if nothing of its chain is there. -/
theorem creation_mem_of_long {lineage : Lineage} (h_traces : m.Traces d lineage)
    (h_long : declaringLimit + 1 < lineage.length) :
    (FailureSite.creation d).code ∈ (seed m .empty d).failures := by
  rw [seed, mem_failures_attempt]
  refine .inr ⟨rfl, Resolving.not_succeeds_iff.mp fun h_succeeds => ?_⟩
  obtain ⟨lineage', h_traces', h_reach⟩ :=
    (Resolving.definitionWithin_succeeds_iff (Arena.sound_empty m)).mp h_succeeds
  rw [← h_traces.unique h_traces', Arena.inReach_iff_length_le fun _ => rfl] at h_reach
  exact Nat.not_le.mpr h_long h_reach

/-- A definition that is in reach is granted. -/
theorem find?_seed_of_inReach (h : resolver.arena.Sound m) {lineage : Lineage}
    (h_traces : m.Traces d lineage)
    (h_reach : resolver.arena.InReach (declaringLimit + 1) lineage) :
    (∃ id, (seed m resolver d).arena.find? (.ofDefinition d) = some id) ∧
      ((FailureSite.creation d).code ∈ (seed m resolver d).failures ↔
        (FailureSite.creation d).code ∈ resolver.failures) := by
  have h_succeeds : Resolving.Succeeds (Resolving.definition m d) resolver.arena :=
    (Resolving.definitionWithin_succeeds_iff h).mpr ⟨lineage, h_traces, h_reach⟩
  obtain ⟨id, h_id⟩ := h_succeeds
  obtain ⟨_, -, -, h_found⟩ := (Resolving.definition_follows h d).value id h_id
  rw [seed, attempt_arena, mem_failures_attempt]
  refine ⟨⟨id, h_found⟩, or_iff_left ?_⟩
  rintro ⟨-, h_error⟩
  exact Resolving.not_succeeds_iff.mpr h_error ⟨id, h_id⟩

theorem sound_seeds (h : resolver.arena.Sound m) (seeds : List Nat) :
    (seeds.foldl (seed m) resolver).arena.Sound m :=
  foldl_induction (P := fun r => r.arena.Sound m) (fun _ i h => sound_seed h i) seeds h

/-- A definition is in reach as soon as the definition around it is there. -/
theorem inReach_of_around {lineage : Lineage} (links : Nat)
    (h : ∀ around, lineage.outer? = some around →
      ∃ id, resolver.arena.find? (.ofDefinition around.frame.definition) = some id) :
    resolver.arena.InReach (links + 1) lineage := by
  refine .inr fun around h_around => ?_
  obtain ⟨id, h_id⟩ := h around h_around
  exact Arena.inReach_of_found h_id

/-- **From the outside.** If the types around a definition are visited from the outermost one
inwards, the definition is there, however long the chain is. By induction along the chain. -/
theorem find?_seeds_of_traces (h : resolver.arena.Sound m) {lineage : Lineage}
    (h_traces : m.Traces d lineage) :
    ∃ id, (lineage.definitions.reverse.foldl (seed m) resolver).arena.find? (.ofDefinition d) =
      some id := by
  induction h_traces with
  | @top d row lineage h_row h_alone h_made =>
    obtain ⟨-, -, h_outer, h_definitions⟩ := Metadata.madeOf_of_lineageOf h_made
    rw [h_definitions]
    refine (find?_seed_of_inReach h (.top h_row h_alone h_made) ?_).1
    refine inReach_of_around declaringLimit fun around h_around => ?_
    rw [h_outer] at h_around
    cases h_around
  | @nested d outer row lineage around h_row h_inside h_around h_made ih =>
    obtain ⟨-, -, h_outer, h_definitions⟩ := Metadata.madeOf_of_lineageOf h_made
    have h_split : lineage.definitions.reverse = around.definitions.reverse ++ [d] := by
      rw [h_definitions]
      exact List.reverse_cons
    rw [h_split, List.foldl_append]
    refine (find?_seed_of_inReach (sound_seeds h _) (.nested h_row h_inside h_around h_made) ?_).1
    -- the class around is there, so that one link is enough
    refine inReach_of_around declaringLimit fun around' h_some => ?_
    rw [h_outer] at h_some
    cases h_some
    rwa [h_around.frame_definition]

/-- In that order, the innermost definition is not written down. -/
theorem creation_not_mem_seeds_of_traces {lineage : Lineage} (h_traces : m.Traces d lineage) :
    (FailureSite.creation d).code ∉
      (lineage.definitions.reverse.foldl (seed m) .empty).failures := by
  have h_nodup := h_traces.definitions_nodup
  have h_empty : Resolver.empty.arena.Sound m := Arena.sound_empty m
  -- the definition is in reach of the types around it, which are visited before it
  have h_last {outer : List Nat} (h_outer : d ∉ outer)
      (h_reach : (outer.reverse.foldl (seed m) .empty).arena.InReach (declaringLimit + 1) lineage) :
      (FailureSite.creation d).code ∉ ((d :: outer).reverse.foldl (seed m) .empty).failures := by
    rw [List.reverse_cons, List.foldl_append]
    have h_same := (find?_seed_of_inReach (sound_seeds h_empty _) h_traces h_reach).2
    refine mt h_same.mp ?_
    rw [creation_mem_seeds (mt List.mem_reverse.mp h_outer)]
    exact Std.ExtTreeMap.not_mem_empty
  cases h_traces with
  | top h_row h_alone h_made =>
    obtain ⟨-, -, h_outer, h_definitions⟩ := Metadata.madeOf_of_lineageOf h_made
    rw [h_definitions]
    refine h_last List.not_mem_nil (inReach_of_around declaringLimit fun around h_around => ?_)
    rw [h_outer] at h_around
    cases h_around
  | nested h_row h_inside h_around h_made =>
    obtain ⟨-, -, h_outer, h_definitions⟩ := Metadata.madeOf_of_lineageOf h_made
    rw [h_definitions] at h_nodup ⊢
    refine h_last (List.nodup_cons.mp h_nodup).1
      (inReach_of_around declaringLimit fun around' h_some => ?_)
    rw [h_outer] at h_some
    cases h_some
    rw [h_around.frame_definition]
    exact find?_seeds_of_traces h_empty h_around

/-- Different definitions can be visited first, in any order. -/
theorem exists_seeds {first : List Nat} (h_nodup : first.Nodup)
    (h_lt : ∀ d ∈ first, d < m.typeDefinitions.size) :
    ∃ rest, (first ++ rest).Perm (List.range m.typeDefinitions.size) := by
  obtain ⟨l, h_perm, h_sublist⟩ := List.subperm_iff.mp (List.subperm_of_subset h_nodup
    fun d h_d => List.mem_range.mpr (h_lt d h_d))
  obtain ⟨rest, h_rest⟩ := h_sublist.exists_perm_append
  exact ⟨rest, h_rest.symm.trans h_perm⟩

/-- **If a chain is too long**, its innermost definition is refused in one order and granted in
another. -/
theorem exists_runs_of_long (config : Config) {lineage : Lineage} (h_traces : m.Traces d lineage)
    (h_long : declaringLimit + 1 < lineage.length) :
    ∃ r₁ r₂, RunsTo m config r₁ ∧ RunsTo m config r₂ ∧ d ∈ r₁.outcome.uncreated ∧
      d ∉ r₂.outcome.uncreated := by
  -- what is visited first decides
  have h_run (first : List Nat) (h_nodup : first.Nodup)
      (h_lt : ∀ d ∈ first, d < m.typeDefinitions.size) (h_d : d ∈ first) :
      ∃ r, RunsTo m config r ∧ (d ∈ r.outcome.uncreated ↔
        (FailureSite.creation d).code ∈ (first.foldl (seed m) .empty).failures) := by
    obtain ⟨rest, h_perm⟩ := exists_seeds h_nodup h_lt
    have h_rest : d ∉ rest := by
      have h_all := h_perm.nodup_iff.mpr List.nodup_range
      exact List.disjoint_of_nodup_append h_all h_d
    obtain ⟨r, h_r⟩ := exists_completes m config (first ++ rest) (m.listings config)
    refine ⟨r, ⟨_, _, h_perm, .refl _, h_r⟩, ?_⟩
    rw [mem_uncreated_iff h_r, List.foldl_append, creation_mem_seeds h_rest]
  -- the innermost definition first
  obtain ⟨r₁, h_r₁, h_refused⟩ := h_run [d] (List.nodup_singleton d)
    (List.forall_mem_singleton.mpr h_traces.lt_size) (List.mem_singleton_self d)
  -- from the outside inwards
  obtain ⟨r₂, h_r₂, h_granted⟩ := h_run lineage.definitions.reverse
    (List.nodup_reverse.mpr h_traces.definitions_nodup)
    (fun e h_e => by
      obtain ⟨lineage', h_traces', -⟩ := h_traces.exists_of_mem (List.mem_reverse.mp h_e)
      exact h_traces'.lt_size)
    (List.mem_reverse.mpr h_traces.mem_definitions)
  refine ⟨r₁, r₂, h_r₁, h_r₂, h_refused.mpr (creation_mem_of_long h_traces h_long), ?_⟩
  exact mt h_granted.mp (creation_not_mem_seeds_of_traces h_traces)

end Long

/-- A nest of types is within the limit exactly if there are no more types than are followed. -/
theorem chainsInLimit_nest_iff {n : Nat} :
    (Metadata.nest n).ChainsInLimit ↔ n ≤ declaringLimit + 1 := by
  constructor
  · intro h
    cases n with
    | zero => exact Nat.zero_le _
    | succ n =>
      obtain ⟨lineage, h_traces, h_length⟩ := Metadata.exists_traces_nest (Nat.succ_pos n)
      exact Nat.le_trans (Nat.le_of_eq h_length.symm) (h 0 lineage h_traces)
  · intro h
    exact Metadata.chainsInLimit_of_size_le (Nat.le_trans (Nat.le_of_eq (Metadata.size_nest n)) h)

/-- All runs have the same outcome exactly if no chain of nested types is longer than what is
followed at once. -/
theorem same_outcome_iff (m : Metadata) (config : Config) :
    (∀ r₁ r₂, RunsTo m config r₁ → RunsTo m config r₂ → r₁.outcome = r₂.outcome) ↔
      m.ChainsInLimit := by
  refine ⟨fun h_same d lineage h_traces => ?_, fun h_limit r₁ r₂ h_r₁ h_r₂ => ?_⟩
  · by_contra h_long
    -- a chain that is too long would tell two orders apart
    obtain ⟨r₁, r₂, h_r₁, h_r₂, h_refused, h_granted⟩ :=
      exists_runs_of_long config h_traces (Nat.not_le.mp h_long)
    rw [h_same r₁ r₂ h_r₁ h_r₂] at h_refused
    exact h_granted h_refused
  · rw [outcome_of_runsTo h_limit h_r₁, outcome_of_runsTo h_limit h_r₂]

/-- Nests come to the same in every order up to one type more than are followed, and no larger ones
do. -/
theorem same_outcome_nest_iff {n : Nat} {config : Config} :
    (∀ r₁ r₂, RunsTo (.nest n) config r₁ → RunsTo (.nest n) config r₂ →
      r₁.outcome = r₂.outcome) ↔ n ≤ declaringLimit + 1 :=
  (same_outcome_iff (.nest n) config).trans chainsInLimit_nest_iff

/-- **Order independence.** The run of the program is one of the runs in any order; and all of these
have the same outcome exactly if no chain of nested types is longer than what is followed at
once. -/
theorem order_independent_iff (m : Metadata) (config : Config) :
    RunsTo m config (Resolver.empty.run m config) ∧
      ((∀ r₁ r₂, RunsTo m config r₁ → RunsTo m config r₂ → r₁.outcome = r₂.outcome) ↔
        m.ChainsInLimit) :=
  ⟨runsTo_run m config, same_outcome_iff m config⟩

end Resolver

end GlobalMetadata
