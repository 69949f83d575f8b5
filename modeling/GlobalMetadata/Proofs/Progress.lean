import GlobalMetadata.Proofs.Ledger

/-!
# The progress of a run

What a run has come to after some of its visits, in whatever order it makes them, if no chain of
nested types is too long to be followed at once.

While definitions are visited, `Resolver.Seeding` holds: there are classes of definitions only, none
of them has members, and every definition that was visited and has a chain is there. After that
every step does exactly what its meaning says, and `Resolver.Progress` holds: every key is one that
a run comes to, what was visited is read off its meaning, what it asks for is there, and everything
else is still to be done.

A run is over when everything was visited. Then what it has come to is what it should come to
(`Resolver.Progress.outcome_eq`), and there is nothing in that about the order.
-/

namespace GlobalMetadata

/-- No chain of nested types is longer than what is followed at once. -/
def Metadata.ChainsInLimit (m : Metadata) : Prop :=
  ∀ definition lineage, m.Traces definition lineage → lineage.length ≤ declaringLimit + 1

/-- No chain is too long where there are no more definitions than that. -/
theorem Metadata.chainsInLimit_of_size_le {m : Metadata}
    (h : m.typeDefinitions.size ≤ declaringLimit + 1) : m.ChainsInLimit :=
  fun _ _ h_traces => Nat.le_trans h_traces.length_le h

/-! ### Steps that follow their meaning -/

namespace Resolving

variable {α β : Type} {m : Metadata} {arena : Arena} {x : Resolving α} {y : Meaning β}
  {R : Arena → α → β → Prop}

/-- In a seeded arena a step fails exactly if nothing is meant. -/
theorem Follows.error_iff (h : Follows m arena x y R) (h_seeded : arena.Seeded m) :
    (∃ e, result x arena = .error e) ↔ y.value = none := by
  constructor
  · rintro ⟨e, h_e⟩
    exact h.fails h_seeded e h_e
  · intro h_none
    rw [← not_succeeds_iff]
    rintro ⟨a, h_a⟩
    obtain ⟨b, h_b, -⟩ := h.value a h_a
    rw [h_none] at h_b
    cases h_b

/-- Within the limit, the class of a definition is created whenever the definition has a chain. -/
theorem definition_error_iff (h_limit : m.ChainsInLimit) (h : arena.Sound m) {index : Nat} :
    (∃ e, result (definition m index) arena = .error e) ↔
      ∀ lineage, ¬ m.Traces index lineage := by
  rw [← not_succeeds_iff, definition, definitionWithin_succeeds_iff h, not_exists]
  refine forall_congr' fun lineage => not_congr (and_iff_left_of_imp fun h_traces => ?_)
  exact Arena.inReach_of_length_le (h_limit index lineage h_traces)

end Resolving

namespace Resolver

/-! ### Visiting definitions -/

/-- What a run has come to when it has visited these definitions and nothing else. -/
structure Seeding (m : Metadata) (visited : List Nat) (resolver : Resolver) : Prop where
  sound : resolver.arena.Sound m
  /-- There are only definitions. -/
  plain : ∀ k, resolver.arena.Holds k → k.isInstantiation = false
  bare : ∀ id c, resolver.arena.class? id = some c → c.members = none
  /-- Nothing was cut off. -/
  truncated : resolver.arena.truncated = 0
  /-- What was visited and has a chain is there. -/
  there : ∀ d ∈ visited, ∀ lineage, m.Traces d lineage →
    ∃ id, resolver.arena.find? (.ofDefinition d) = some id
  /-- What was visited and has no chain was written down, and nothing else. -/
  log : ∀ site : FailureSite, site.code ∈ resolver.failures ↔
    ∃ d ∈ visited, site = .creation d ∧ ∀ lineage, ¬ m.Traces d lineage

theorem seeding_empty (m : Metadata) : Seeding m [] .empty where
  sound := Arena.sound_empty m
  plain := fun _ ⟨_, _, h_c, _⟩ => by cases h_c
  bare _ _ h_c := by cases h_c
  truncated := rfl
  there _ h_d := absurd h_d List.not_mem_nil
  log site := by
    refine iff_of_false (fun h_mem => ?_) fun ⟨_, h_d, _⟩ => absurd h_d List.not_mem_nil
    exact Std.ExtTreeMap.not_mem_empty h_mem

/-- **Visiting a definition**, if no chain is too long. -/
theorem Seeding.seed {m : Metadata} (h_limit : m.ChainsInLimit) {visited : List Nat}
    {resolver : Resolver} (h : Seeding m visited resolver) (d : Nat) :
    Seeding m (d :: visited) (seed m resolver d) := by
  have h_follows := Resolving.definition_follows h.sound d
  have h_arena : (Resolver.seed m resolver d).arena =
      Resolving.after (Resolving.definition m d) resolver.arena := attempt_arena ..
  constructor
  case sound =>
    rw [h_arena]
    exact h_follows.sound
  case plain =>
    rw [h_arena]
    intro k h_k
    rcases h_follows.demanded k h_k with h_old | h_plain | h_asked
    · exact h.plain k h_old
    · exact h_plain
    · exact absurd h_asked List.not_mem_nil
  case bare =>
    rw [h_arena]
    intro id c h_c
    rcases h_follows.frame id c h_c with h_old | ⟨-, h_bare⟩
    · exact h.bare id c h_old
    · exact h_bare
  case truncated =>
    rw [h_arena]
    exact Nat.le_zero.mp (h.truncated ▸ h_follows.bounded)
  case there =>
    rw [h_arena]
    intro d' h_d' lineage h_traces
    rcases List.mem_cons.mp h_d' with rfl | h_d'
    · -- no chain is too long, so that the class is found or created
      have h_fails := (Resolving.definition_error_iff h_limit h.sound).not.mpr
        fun h_none => h_none lineage h_traces
      obtain ⟨id, h_id⟩ := not_not.mp (mt Resolving.not_succeeds_iff.mp h_fails)
      obtain ⟨_, -, -, h_found⟩ := h_follows.value id h_id
      exact ⟨id, h_found⟩
    · obtain ⟨id, h_id⟩ := h.there d' h_d' lineage h_traces
      exact ⟨id, Arena.find?_mono h_follows.grows h_id⟩
  case log =>
    intro site
    rw [Resolver.seed, mem_failures_attempt, Resolving.definition_error_iff h_limit h.sound, h.log]
    constructor
    · rintro (⟨d', h_d', h_site⟩ | h_site)
      · exact ⟨d', List.mem_cons_of_mem d h_d', h_site⟩
      · exact ⟨d, List.mem_cons_self, h_site⟩
    · rintro ⟨d', h_d', h_site⟩
      rcases List.mem_cons.mp h_d' with rfl | h_d'
      · exact .inr h_site
      · exact .inl ⟨d', h_d', h_site⟩

/-- Steps that are taken one after the other are collected in reverse. -/
theorem foldl_collect {α : Type} {P : List α → Resolver → Prop} {step : Resolver → α → Resolver}
    (as : List α) (h_step : ∀ done resolver, ∀ a ∈ as, P done resolver →
      P (a :: done) (step resolver a)) {done : List α} {resolver : Resolver}
    (h : P done resolver) : P (as.reverse ++ done) (as.foldl step resolver) := by
  induction as generalizing done resolver with
  | nil => exact h
  | cons a as ih =>
    rw [List.reverse_cons, List.append_assoc]
    exact ih (fun done resolver a' h_a' => h_step done resolver a' (List.mem_cons_of_mem a h_a'))
      (h_step done resolver a List.mem_cons_self h)

theorem seeding_seeds {m : Metadata} (h_limit : m.ChainsInLimit) (seeds : List Nat) :
    Seeding m seeds.reverse (seeds.foldl (Resolver.seed m) .empty) := by
  have h_fold := foldl_collect (P := Seeding m) seeds (fun _ _ d _ h => h.seed h_limit d)
    (seeding_empty m)
  rwa [List.append_nil] at h_fold

end Resolver

/-! ### Visiting listings and completing classes -/

/-- What is in an arena when these listings were visited and these classes completed, each class
given by its position and its key. -/
structure Arena.Progress (m : Metadata) (config : Config) (listed : List (Nat × Nat))
    (done : List (Nat × KeyTerm)) (arena : Arena) : Prop where
  sound : arena.Sound m
  /-- Every definition with a chain is there. -/
  seeded : arena.Seeded m
  /-- Every key is one that a run comes to. -/
  reached : ∀ k, arena.Holds k → m.Reaches config k
  /-- What was completed is there. -/
  classes : ∀ p ∈ done, arena.UnfoldsClass p.2 ⟨p.1⟩
  /-- What was completed has the members that it should have. -/
  completed : ∀ p ∈ done, ∀ c, arena.class? ⟨p.1⟩ = some c →
    Option.Rel arena.ReadsMembers (m.membersMeaning config p.2).value c.members
  /-- What was not completed has none. -/
  pending : ∀ id c, arena.class? id = some c → (∀ p ∈ done, p.1 ≠ id.index) → c.members = none
  /-- What the listings ask for is there. -/
  listedMet : ∀ entry ∈ listed, ∀ k ∈ (m.listedMeaning config entry).demands, arena.Holds k
  /-- What members ask for is there. -/
  doneMet : ∀ p ∈ done, ∀ k ∈ (m.membersMeaning config p.2).demands, arena.Holds k

namespace Arena.Progress

variable {m : Metadata} {config : Config} {listed : List (Nat × Nat)}
  {done : List (Nat × KeyTerm)} {arena : Arena}

/-- **Frame.** A step that asks for nothing but keys that a run comes to changes nothing of what was
done. -/
theorem follow {α β : Type} {x : Resolving α} {y : Meaning β} {R : Arena → α → β → Prop}
    (h : arena.Progress m config listed done) (h_follows : Resolving.Follows m arena x y R)
    (h_asked : ∀ k ∈ y.demands, m.Reaches config k) :
    (Resolving.after x arena).Progress m config listed done where
  sound := h_follows.sound
  seeded := h.seeded.mono h_follows.grows
  reached k h_k := by
    rcases h_follows.demanded k h_k with h_old | h_plain | h_new
    · exact h.reached k h_old
    · -- a new definition is one that a run comes to anyway
      obtain ⟨id, c, h_c, h_key⟩ := h_k
      obtain ⟨lineage, h_traces, -⟩ := h_follows.sound.shows_of_key h_c h_key
      rw [KeyTerm.eq_ofDefinition h_plain]
      exact .definition h_traces
    · exact h_asked k h_new
  classes p h_p := (h.classes p h_p).mono h_follows.grows
  completed p h_p c h_c := by
    rcases h_follows.frame ⟨p.1⟩ c h_c with h_old | ⟨h_new, -⟩
    · exact optionRel_imp (fun _ _ h_t => h_t.mono h_follows.grows) (h.completed p h_p c h_old)
    · -- a completed class is not new
      obtain ⟨c', h_c', -⟩ := h.classes p h_p
      exact absurd (hasClass_iff.mpr ⟨c', h_c'⟩) h_new
  pending id c h_c h_id := by
    rcases h_follows.frame id c h_c with h_old | ⟨-, h_bare⟩
    · exact h.pending id c h_old h_id
    · exact h_bare
  listedMet entry h_entry k h_k := (h.listedMet entry h_entry k h_k).mono h_follows.grows
  doneMet p h_p k h_k := (h.doneMet p h_p k h_k).mono h_follows.grows

/-- One more listing was visited. -/
theorem list (h : arena.Progress m config listed done) {entry : Nat × Nat}
    (h_met : ∀ k ∈ (m.listedMeaning config entry).demands, arena.Holds k) :
    arena.Progress m config (entry :: listed) done :=
  { h with listedMet := List.forall_mem_cons.mpr ⟨h_met, h.listedMet⟩ }

variable {i : Nat} {k : KeyTerm} {c : ResolvedClass}

/-- One more class turned out to have no members. -/
theorem fail (h : arena.Progress m config listed done) (h_c : arena.class? ⟨i⟩ = some c)
    (h_k : arena.UnfoldsKey k c.key) (h_new : ∀ p ∈ done, p.1 ≠ i)
    (h_none : (m.membersMeaning config k).value = none)
    (h_met : ∀ k' ∈ (m.membersMeaning config k).demands, arena.Holds k') :
    arena.Progress m config listed ((i, k) :: done) :=
  { h with
    classes := List.forall_mem_cons.mpr ⟨⟨c, h_c, h_k⟩, h.classes⟩
    completed := by
      refine List.forall_mem_cons.mpr ⟨fun c' h_c' => ?_, h.completed⟩
      rw [h_none, h.pending ⟨i⟩ c' h_c' h_new]
      exact .none
    pending := fun id c' h_c' h_id =>
      h.pending id c' h_c' fun p h_p => h_id p (List.mem_cons_of_mem _ h_p)
    doneMet := List.forall_mem_cons.mpr ⟨h_met, h.doneMet⟩ }

/-- One more class was given the members that it should have. -/
theorem publish (h : arena.Progress m config listed done) (h_c : arena.class? ⟨i⟩ = some c)
    (h_k : arena.UnfoldsKey k c.key) (h_new : ∀ p ∈ done, p.1 ≠ i) {members : Members}
    {t : MembersTerm} (h_value : (m.membersMeaning config k).value = some t)
    (h_reads : arena.ReadsMembers t members)
    (h_met : ∀ k' ∈ (m.membersMeaning config k).demands, arena.Holds k') :
    (arena.publish ⟨i⟩ members).Progress m config listed ((i, k) :: done) := by
  have h_le := arena.le_publish ⟨i⟩ members
  -- no other class changes
  have h_other {j : Nat} (h_j : i ≠ j) :
      (arena.publish ⟨i⟩ members).class? ⟨j⟩ = arena.class? ⟨j⟩ := by
    rw [class?_publish, if_neg fun h_same => h_j (congrArg ClassId.index h_same)]
  refine
    { sound := h.sound.publish ⟨i⟩ members
      seeded := h.seeded.mono h_le
      reached := fun k' h_k' => h.reached k' (holds_of_publish h.sound h_k')
      classes := ?_
      completed := ?_
      pending := ?_
      listedMet := fun entry h_entry k' h_k' => (h.listedMet entry h_entry k' h_k').mono h_le
      doneMet := ?_ }
  · refine List.forall_mem_cons.mpr ⟨?_, fun p h_p => (h.classes p h_p).mono h_le⟩
    exact UnfoldsClass.mono h_le ⟨c, h_c, h_k⟩
  · refine List.forall_mem_cons.mpr ⟨fun c' h_c' => ?_, fun p h_p c' h_c' => ?_⟩
    · rw [class?_publish, if_pos rfl, h_c] at h_c'
      cases h_c'
      show Option.Rel _ _ (c.members <|> some members)
      rw [h_value, h.pending ⟨i⟩ c h_c h_new]
      exact .some (h_reads.mono h_le)
    · rw [h_other (h_new p h_p).symm] at h_c'
      exact optionRel_imp (fun _ _ h_t => h_t.mono h_le) (h.completed p h_p c' h_c')
  · intro id c' h_c' h_id
    rw [h_other (h_id (i, k) List.mem_cons_self)] at h_c'
    exact h.pending id c' h_c' fun p h_p => h_id p (List.mem_cons_of_mem _ h_p)
  · refine List.forall_mem_cons.mpr ⟨fun k' h_k' => (h_met k' h_k').mono h_le, ?_⟩
    exact fun p h_p k' h_k' => (h.doneMet p h_p k' h_k').mono h_le

/-- **Completing a class** that was not completed yet: it is given its members, or turns out to have
none. -/
theorem complete (h : arena.Progress m config listed done) (h_c : arena.class? ⟨i⟩ = some c)
    (h_k : arena.UnfoldsKey k c.key) (h_new : ∀ p ∈ done, p.1 ≠ i) :
    (Resolving.after (Resolving.complete m config.maxGenericDepth ⟨i⟩) arena).Progress m config
      listed ((i, k) :: done) := by
  have h_follows := Resolving.members_follows config.maxGenericDepth h.sound h_c h_k
  have h_middle := h.follow h_follows fun k' h_k' =>
    .member (h.reached k ⟨⟨i⟩, c, h_c, h_k⟩) h_k'
  -- the class may have changed while its members were resolved, but not its key
  obtain ⟨c', h_c', h_grows⟩ := class?_mono h_follows.grows h_c
  have h_key' := h_grows.key_eq ▸ h_k.mono h_follows.grows
  have h_met := h_follows.meets h.seeded
  rw [(Resolving.complete_of_some config.maxGenericDepth h_c).2]
  split
  next members h_members =>
    obtain ⟨t, h_value, h_reads⟩ := h_follows.value members h_members
    exact h_middle.publish h_c' h_key' h_new h_value h_reads h_met
  next e h_e =>
    have h_none := h_follows.fails h.seeded e h_e
    exact h_middle.fail h_c' h_key' h_new h_none h_met

/-- What is cut off when a class is completed. -/
theorem truncated_complete (h : arena.Progress m config listed done)
    (h_c : arena.class? ⟨i⟩ = some c) (h_k : arena.UnfoldsKey k c.key) :
    (Resolving.after (Resolving.complete m config.maxGenericDepth ⟨i⟩) arena).truncated =
      arena.truncated + (m.membersMeaning config k).cuts := by
  have h_follows := Resolving.members_follows config.maxGenericDepth h.sound h_c h_k
  rw [(Resolving.complete_of_some config.maxGenericDepth h_c).2]
  split <;> exact h_follows.counts h.seeded

/-- Completing a class fails if it is meant to have no members. -/
theorem complete_error_iff (h : arena.Progress m config listed done)
    (h_c : arena.class? ⟨i⟩ = some c) (h_k : arena.UnfoldsKey k c.key) :
    (∃ e, Resolving.result (Resolving.complete m config.maxGenericDepth ⟨i⟩) arena = .error e) ↔
      (m.membersMeaning config k).value = none := by
  have h_follows := Resolving.members_follows config.maxGenericDepth h.sound h_c h_k
  exact (exists_congr fun _ => Resolving.complete_error_iff config.maxGenericDepth h_c).trans
    (h_follows.error_iff h.seeded)

end Arena.Progress

namespace Resolver

/-- What a run has come to when it has visited all definitions and these listings and completed
these classes. -/
structure Progress (m : Metadata) (config : Config) (listed : List (Nat × Nat))
    (done : List (Nat × KeyTerm)) (resolver : Resolver) : Prop where
  /-- What is in the arena. -/
  arena : resolver.arena.Progress m config listed done
  /-- What was cut off. -/
  truncated : resolver.arena.truncated =
    (listed.map fun entry => (m.listedMeaning config entry).cuts).sum +
      (done.map fun p => (m.membersMeaning config p.2).cuts).sum
  /-- The definitions without a chain were written down. -/
  uncreated : ∀ d, (FailureSite.creation d).code ∈ resolver.failures ↔
    d < m.typeDefinitions.size ∧ ∀ lineage, ¬ m.Traces d lineage
  /-- The listings without a meaning were written down. -/
  unlisted : ∀ i, (FailureSite.listed i).code ∈ resolver.failures ↔
    ∃ entry ∈ listed, (m.listedMeaning config entry).value = none ∧ i = entry.2
  /-- The classes without members were written down. -/
  uncompleted : ∀ d i, (FailureSite.completion d i).code ∈ resolver.failures ↔
    ∃ p ∈ done, i = p.1 ∧ d = p.2.definition ∧ (m.membersMeaning config p.2).value = none

variable {m : Metadata} {config : Config} {resolver : Resolver} {listed : List (Nat × Nat)}
  {done : List (Nat × KeyTerm)}

/-- **When all definitions were visited.** -/
theorem Seeding.progress {seeds : List Nat} (h : Seeding m seeds resolver)
    (h_all : ∀ d, d ∈ seeds ↔ d < m.typeDefinitions.size) : Progress m config [] [] resolver where
  arena :=
    { sound := h.sound
      seeded := fun d lineage h_traces =>
        h.there d ((h_all d).mpr h_traces.lt_size) lineage h_traces
      reached := fun k h_k => by
        have h_plain := h.plain k h_k
        obtain ⟨id, c, h_c, h_key⟩ := h_k
        obtain ⟨lineage, h_traces, -⟩ := h.sound.shows_of_key h_c h_key
        rw [KeyTerm.eq_ofDefinition h_plain]
        exact .definition h_traces
      classes := fun _ h_p => absurd h_p List.not_mem_nil
      completed := fun _ h_p => absurd h_p List.not_mem_nil
      pending := fun id c h_c _ => h.bare id c h_c
      listedMet := fun _ h_entry => absurd h_entry List.not_mem_nil
      doneMet := fun _ h_p => absurd h_p List.not_mem_nil }
  truncated := h.truncated
  uncreated d := by
    rw [h.log]
    constructor
    · rintro ⟨d', h_d', h_site, h_none⟩
      cases h_site
      exact ⟨(h_all d).mp h_d', h_none⟩
    · rintro ⟨h_d, h_none⟩
      exact ⟨d, (h_all d).mpr h_d, rfl, h_none⟩
  unlisted i := by
    rw [h.log]
    exact iff_of_false (fun ⟨_, _, h_site, _⟩ => by cases h_site)
      fun ⟨_, h_entry, _⟩ => absurd h_entry List.not_mem_nil
  uncompleted d i := by
    rw [h.log]
    exact iff_of_false (fun ⟨_, _, h_site, _⟩ => by cases h_site)
      fun ⟨_, h_p, _⟩ => absurd h_p List.not_mem_nil

/-- **Visiting a listing.** -/
theorem Progress.seedListed (h : Progress m config listed done resolver) {entry : Nat × Nat}
    (h_entry : entry ∈ m.listings config) :
    Progress m config (entry :: listed) done
      (seedListed m config.maxGenericDepth resolver entry) := by
  have h_follows := Resolving.listed_follows config.maxGenericDepth h.arena.sound entry.1
  have h_arena : (Resolver.seedListed m config.maxGenericDepth resolver entry).arena =
      Resolving.after (Resolving.listed m config.maxGenericDepth entry.1) resolver.arena :=
    attempt_arena ..
  have h_error := h_follows.error_iff h.arena.seeded
  constructor
  case arena =>
    rw [h_arena]
    have h_next := h.arena.follow h_follows fun k h_k => .listed h_entry h_k
    exact h_next.list (h_follows.meets h.arena.seeded)
  case truncated =>
    have h_counts : (Resolver.seedListed m config.maxGenericDepth resolver entry).arena.truncated =
        resolver.arena.truncated + (m.listedMeaning config entry).cuts :=
      h_arena ▸ h_follows.counts h.arena.seeded
    rw [h_counts, h.truncated, List.map_cons, List.sum_cons]
    omega
  case uncreated =>
    intro d
    rw [Resolver.seedListed]
    exact (mem_failures_attempt_of_ne _ _ _ _ (by simp)).trans (h.uncreated d)
  case unlisted =>
    intro i
    rw [Resolver.seedListed, mem_failures_attempt, h.unlisted, h_error, List.exists_mem_cons_iff,
      or_comm, FailureSite.listed.injEq, and_comm]
    rfl
  case uncompleted =>
    intro d i
    rw [Resolver.seedListed]
    exact (mem_failures_attempt_of_ne _ _ _ _ (by simp)).trans (h.uncompleted d i)

/-- **Completing a class** that was not completed yet. -/
theorem Progress.completeClass (h : Progress m config listed done resolver) {i : Nat}
    (h_new : ∀ p ∈ done, p.1 ≠ i) (h_has : resolver.arena.HasClass ⟨i⟩) :
    ∃ k, Progress m config listed ((i, k) :: done)
      (completeClass m config.maxGenericDepth resolver i) := by
  obtain ⟨c, h_c⟩ := Arena.hasClass_iff.mp h_has
  obtain ⟨lineage, k, -, h_shows⟩ := h.arena.sound.classes ⟨i⟩ c h_c
  have h_k := h_shows.key
  refine ⟨k, ?_⟩
  constructor
  case arena =>
    rw [Resolver.completeClass, attempt_arena]
    exact h.arena.complete h_c h_k h_new
  case truncated =>
    rw [Resolver.completeClass, attempt_arena, h.arena.truncated_complete h_c h_k, h.truncated,
      List.map_cons, List.sum_cons]
    dsimp only
    omega
  case uncreated =>
    intro d
    rw [Resolver.completeClass]
    exact (mem_failures_attempt_of_ne _ _ _ _ (by simp)).trans (h.uncreated d)
  case unlisted =>
    intro j
    rw [Resolver.completeClass]
    exact (mem_failures_attempt_of_ne _ _ _ _ (by simp)).trans (h.unlisted j)
  case uncompleted =>
    intro d j
    rw [Resolver.completeClass, mem_failures_attempt, h.uncompleted,
      h.arena.complete_error_iff h_c h_k, h_c, List.exists_mem_cons_iff, or_comm,
      FailureSite.completion.injEq]
    show (d = c.key.definition ∧ j = i) ∧ _ ∨ _ ↔ _
    rw [h_k.1, and_comm (a := d = k.definition), and_assoc]

/-- Completing some classes, each of them once. -/
theorem Progress.completeAll (order : List Nat) (h : Progress m config listed done resolver)
    (h_nodup : order.Nodup) (h_new : ∀ i ∈ order, ∀ p ∈ done, p.1 ≠ i)
    (h_has : ∀ i ∈ order, resolver.arena.HasClass ⟨i⟩) :
    ∃ done', (done'.map Prod.fst).Perm (order ++ done.map Prod.fst) ∧
      Progress m config listed done'
        (order.foldl (Resolver.completeClass m config.maxGenericDepth) resolver) := by
  induction order generalizing resolver done with
  | nil => exact ⟨done, .refl _, h⟩
  | cons i order ih =>
    obtain ⟨h_i, h_nodup⟩ := List.nodup_cons.mp h_nodup
    obtain ⟨k, h_next⟩ :=
      h.completeClass (h_new i List.mem_cons_self) (h_has i List.mem_cons_self)
    -- what comes next is not the class that was just completed
    have h_new' : ∀ j ∈ order, ∀ p ∈ (i, k) :: done, p.1 ≠ j := by
      intro j h_j
      refine List.forall_mem_cons.mpr ⟨?_, h_new j (List.mem_cons_of_mem i h_j)⟩
      rintro rfl
      exact h_i h_j
    have h_le := le_completeClass m config.maxGenericDepth resolver i
    obtain ⟨done', h_perm, h_progress⟩ := ih h_next h_nodup h_new' fun j h_j =>
      (h_has j (List.mem_cons_of_mem i h_j)).mono h_le
    exact ⟨done', h_perm.trans List.perm_middle, h_progress⟩

/-- **All rounds**, by induction on them: when no class is left, every class was completed once. -/
theorem Completes.progress {n : Nat} {final : Resolver}
    (h : Completes m config.maxGenericDepth n resolver final)
    (h_progress : Progress m config listed done resolver)
    (h_done : (done.map Prod.fst).Perm (List.range n)) :
    ∃ done', (done'.map Prod.fst).Perm (List.range final.arena.classes.size) ∧
      Progress m config listed done' final := by
  induction h generalizing done with
  | @last n resolver h_last =>
    -- what was completed is there
    have h_size : n = resolver.arena.classes.size := by
      refine Nat.le_antisymm (Nat.le_of_not_lt fun h_lt => ?_) h_last
      have h_mem := h_done.mem_iff.mpr (List.mem_range.mpr h_lt)
      obtain ⟨p, h_p, h_index⟩ := List.mem_map.mp h_mem
      obtain ⟨c, h_c, -⟩ := h_progress.arena.classes p h_p
      have h_has : resolver.arena.HasClass ⟨p.1⟩ := Arena.hasClass_iff.mpr ⟨c, h_c⟩
      rw [h_index] at h_has
      exact Nat.lt_irrefl _ h_has
    rw [← h_size]
    exact ⟨done, h_done, h_progress⟩
  | @round n order resolver final h_more h_order _ ih =>
    have h_mem {i : Nat} (h_i : i ∈ order) : n ≤ i ∧ i < resolver.arena.classes.size := by
      have h_range := List.mem_range'_1.mp (h_order.mem_iff.mp h_i)
      omega
    -- a round completes classes that were created since the last one
    have h_new : ∀ i ∈ order, ∀ p ∈ done, p.1 ≠ i := by
      rintro i h_i p h_p rfl
      have h_old := List.mem_range.mp (h_done.mem_iff.mp (List.mem_map_of_mem h_p))
      exact Nat.not_le.mpr h_old (h_mem h_i).1
    obtain ⟨done', h_perm, h_next⟩ := h_progress.completeAll order
      (h_order.nodup_iff.mpr List.nodup_range') h_new fun i h_i => (h_mem h_i).2
    refine ih h_next (h_perm.trans ?_)
    rw [← range_append_range' h_more.le]
    exact (h_order.append h_done).trans List.perm_append_comm

end Resolver

end GlobalMetadata
