import GlobalMetadata.Proofs.Publication
import GlobalMetadata.Proofs.Schedule

/-!
# Runs as schedules of visits

A run makes visits, one after the other: to definitions, to listed instantiations and to classes.
Each visit is one attempt, which is written down under its own site if it fails. A `Schedule` is a
list of visits, the latest one first, in which no visit is made twice and a class is visited only
once it is there.

`Resolver.exists_schedule` takes the rounds of a run apart: whatever a run comes to is the state
after a schedule, and the schedule consists of every definition, every listing and every class that
is there in the end. So what a single visit keeps can be followed over a whole run by induction on
its schedule, with no rounds in between.
-/

namespace GlobalMetadata

/-- A listing is known by its position. -/
theorem Metadata.eq_of_position {m : Metadata} {config : Config} {entry entry' : Nat × Nat}
    (h : entry ∈ m.listings config) (h' : entry' ∈ m.listings config)
    (h_position : entry.2 = entry'.2) : entry = entry' := by
  unfold Metadata.listings at h h'
  split at h
  · rw [if_pos ‹_›] at h'
    have h_entry := List.mem_zipIdx_iff_getElem?.mp h
    have h_entry' := List.mem_zipIdx_iff_getElem?.mp h'
    rw [h_position, h_entry'] at h_entry
    exact Prod.ext (Option.some.inj h_entry).symm h_position
  · exact absurd h List.not_mem_nil

namespace Visit

/-- There is something to visit. -/
def Possible (m : Metadata) (config : Config) (arena : Arena) : Visit → Prop
  | .definition d => d < m.typeDefinitions.size
  | .listing entry => entry ∈ m.listings config
  | .class i => arena.HasClass ⟨i⟩

/-- Where a visit is written down if it fails. -/
def site (arena : Arena) : Visit → FailureSite
  | .definition d => .creation d
  | .listing entry => .listed entry.2
  | .class i => .completion ((arena.class? ⟨i⟩).elim 0 (·.definition)) i

variable {m : Metadata} {config : Config} {arena arena' : Arena} {v v' : Visit}

theorem Possible.mono (h : v.Possible m config arena) (h_le : arena ≤ arena') :
    v.Possible m config arena' := by
  cases v with
  | definition d => exact h
  | listing entry => exact h
  | «class» i => exact Arena.HasClass.mono h_le h

/-- A class keeps its definition, and so its site. -/
theorem site_eq_of_le (h : v.Possible m config arena) (h_le : arena ≤ arena') :
    v.site arena' = v.site arena := by
  cases v with
  | definition d => rfl
  | listing entry => rfl
  | «class» i =>
    obtain ⟨c, h_c⟩ := Arena.hasClass_iff.mp h
    obtain ⟨c', h_c', h_grows⟩ := Arena.class?_mono h_le h_c
    rw [site, site, h_c, h_c']
    show FailureSite.completion c'.key.definition i = .completion c.key.definition i
    rw [h_grows.key_eq]

/-- **A site belongs to one visit.** -/
theorem eq_of_site_eq (h : v.Possible m config arena) (h' : v'.Possible m config arena')
    (h_site : v.site arena = v'.site arena') : v = v' := by
  cases v with
  | definition d =>
    cases v' with
    | definition d' => rw [FailureSite.creation.inj h_site]
    | listing entry' => cases h_site
    | «class» i' => cases h_site
  | listing entry =>
    cases v' with
    | definition d' => cases h_site
    | listing entry' => rw [Metadata.eq_of_position h h' (FailureSite.listed.inj h_site)]
    | «class» i' => cases h_site
  | «class» i =>
    cases v' with
    | definition d' => cases h_site
    | listing entry' => cases h_site
    | «class» i' => rw [(FailureSite.completion.inj h_site).2]

end Visit

namespace Resolver

section Visits

variable (m : Metadata) (config : Config)

/-- The state that visits bring a new resolver to, the latest one first. -/
def stateAfter : List Visit → Resolver
  | [] => .empty
  | v :: visits => make m config (stateAfter visits) v

/-- The visits can be made, and none of them is made twice. -/
inductive Schedule : List Visit → Prop
  /-- Before any visit. -/
  | start : Schedule []
  /-- One visit later. -/
  | next {visits : List Visit} {v : Visit} (before : Schedule visits) (new : v ∉ visits)
      (possible : v.Possible m config (stateAfter m config visits).arena) : Schedule (v :: visits)

/-- All that there is to visit when there are so many classes. -/
def agenda (classes : Nat) : List Visit :=
  (List.range classes).map .class ++ (m.listings config).map .listing ++
    (List.range m.typeDefinitions.size).map .definition

end Visits

variable {m : Metadata} {config : Config} {resolver final : Resolver} {visits : List Visit}

/-- **Frame.** A visit leaves every class alone but the one that is visited, and what it adds has no
members. -/
theorem class?_make (h : resolver.arena.Sound m) {v : Visit} {id : ClassId} {c : ResolvedClass}
    (h_v : v ≠ .class id.index) (h_c : (make m config resolver v).arena.class? id = some c) :
    resolver.arena.class? id = some c ∨
      ¬ resolver.arena.HasClass id ∧ c.members = none := by
  cases v with
  | definition d =>
    rw [make, seed, attempt_arena] at h_c
    exact (Resolving.definition_follows h d).frame id c h_c
  | listing entry =>
    rw [make, seedListed, attempt_arena] at h_c
    exact (Resolving.listed_follows config.maxGenericDepth h entry.1).frame id c h_c
  | «class» i =>
    rw [make, completeClass, attempt_arena] at h_c
    cases h_i : resolver.arena.class? ⟨i⟩ with
    | none =>
      rw [(Resolving.complete_of_none config.maxGenericDepth h_i).2] at h_c
      exact .inl h_c
    | some owner =>
      rcases Resolving.class?_complete h h_i h_c with h_old | h_new | ⟨rfl, -⟩
      · exact .inl h_old
      · exact .inr h_new
      · exact absurd rfl h_v

/-! ### Schedules -/

theorem sound_stateAfter (visits : List Visit) : (stateAfter m config visits).arena.Sound m := by
  induction visits with
  | nil => exact Arena.sound_empty m
  | cons v visits ih => exact sound_make ih v

/-- What was visited is still there. -/
theorem Schedule.possible (h : Schedule m config visits) {v : Visit} (h_v : v ∈ visits) :
    v.Possible m config (stateAfter m config visits).arena := by
  induction h with
  | start => exact absurd h_v List.not_mem_nil
  | @next visits v' before h_new h_possible ih =>
    have h_le := le_make m config (stateAfter m config visits) v'
    rcases List.mem_cons.mp h_v with rfl | h_v
    · exact h_possible.mono h_le
    · exact (ih h_v).mono h_le

theorem Schedule.append (h : Schedule m config visits) (more : List Visit) (h_nodup : more.Nodup)
    (h_new : ∀ v ∈ more, v ∉ visits)
    (h_possible : ∀ v ∈ more, v.Possible m config (stateAfter m config visits).arena) :
    Schedule m config (more.reverse ++ visits) ∧
      stateAfter m config (more.reverse ++ visits) =
        more.foldl (make m config) (stateAfter m config visits) := by
  induction more generalizing visits with
  | nil => exact ⟨h, rfl⟩
  | cons v more ih =>
    obtain ⟨h_v, h_nodup⟩ := List.nodup_cons.mp h_nodup
    have h_next : Schedule m config (v :: visits) :=
      h.next (h_new v List.mem_cons_self) (h_possible v List.mem_cons_self)
    have h_le := le_make m config (stateAfter m config visits) v
    rw [List.reverse_cons, List.append_assoc]
    refine ih h_next h_nodup (fun v' h_v' h_mem => ?_) fun v' h_v' => ?_
    · -- a later visit is neither the one just made nor an earlier one
      rcases List.mem_cons.mp h_mem with rfl | h_mem
      · exact h_v h_v'
      · exact h_new v' (List.mem_cons_of_mem v h_v') h_mem
    · exact (h_possible v' (List.mem_cons_of_mem v h_v')).mono h_le

theorem mem_agenda_class {n i : Nat} : .class i ∈ agenda m config n ↔ i < n := by
  simp [agenda]

theorem nodup_listings : (m.listings config).Nodup := by
  unfold Metadata.listings
  split
  · refine List.Nodup.of_map Prod.snd ?_
    rw [List.zipIdx_map_snd]
    exact List.nodup_range'
  · exact List.nodup_nil

/-- **All rounds**, by induction on them. -/
theorem Completes.exists_schedule {n : Nat}
    (h : Completes m config.maxGenericDepth n resolver final) (h_visits : Schedule m config visits)
    (h_state : stateAfter m config visits = resolver)
    (h_agenda : visits.Perm (agenda m config n)) :
    ∃ visits, Schedule m config visits ∧ stateAfter m config visits = final ∧
      visits.Perm (agenda m config final.arena.classes.size) := by
  induction h generalizing visits with
  | @last n resolver h_last =>
    -- no more classes were visited than there are
    have h_size : n = resolver.arena.classes.size := by
      refine Nat.le_antisymm (Nat.le_of_not_lt fun h_lt => ?_) h_last
      have h_mem := h_agenda.mem_iff.mpr (mem_agenda_class.mpr h_lt)
      have h_has : resolver.arena.HasClass ⟨resolver.arena.classes.size⟩ :=
        h_state ▸ h_visits.possible h_mem
      exact Nat.lt_irrefl _ h_has
    exact ⟨visits, h_visits, h_state, h_size ▸ h_agenda⟩
  | @round n order resolver final h_more h_order _ ih =>
    have h_mem {i : Nat} (h_i : i ∈ order) : n ≤ i ∧ i < resolver.arena.classes.size := by
      have h_range := List.mem_range'_1.mp (h_order.mem_iff.mp h_i)
      omega
    obtain ⟨h_next, h_next_state⟩ := h_visits.append (order.map .class)
      ((h_order.nodup_iff.mpr List.nodup_range').map fun _ _ h_same => Visit.class.inj h_same)
      (fun v h_v h_old => by
        -- a round visits classes that were created since the last one
        obtain ⟨i, h_i, rfl⟩ := List.mem_map.mp h_v
        have h_lt := mem_agenda_class.mp (h_agenda.mem_iff.mp h_old)
        exact Nat.not_le.mpr h_lt (h_mem h_i).1)
      (fun v h_v => by
        obtain ⟨i, h_i, rfl⟩ := List.mem_map.mp h_v
        exact h_state ▸ (h_mem h_i).2)
    rw [h_state, List.foldl_map] at h_next_state
    refine ih h_next h_next_state ?_
    -- the old classes and the new ones are all
    have h_classes : (order.map Visit.class ++ (List.range n).map Visit.class).Perm
        ((List.range resolver.arena.classes.size).map Visit.class) := by
      rw [← range_append_range' h_more.le, List.map_append]
      exact ((h_order.map _).append_right _).trans List.perm_append_comm
    have h_all := (List.reverse_perm (order.map Visit.class)).append h_agenda
    rw [agenda, List.append_assoc, ← List.append_assoc] at h_all
    rw [agenda, List.append_assoc]
    exact h_all.trans (h_classes.append_right _)

/-- **Runs are schedules** of all that there is to visit in the end. -/
theorem exists_schedule (h : RunsTo m config final) :
    ∃ visits, Schedule m config visits ∧ stateAfter m config visits = final ∧
      visits.Perm (agenda m config final.arena.classes.size) := by
  obtain ⟨seeds, listed, h_seeds, h_listed, h_rounds⟩ := h
  -- first the definitions
  obtain ⟨h_seeded, h_seeded_state⟩ := (Schedule.start : Schedule m config []).append
    (seeds.map .definition)
    ((h_seeds.nodup_iff.mpr List.nodup_range).map fun _ _ h_same => Visit.definition.inj h_same)
    (fun _ _ => List.not_mem_nil) (fun v h_v => by
      obtain ⟨d, h_d, rfl⟩ := List.mem_map.mp h_v
      exact List.mem_range.mp (h_seeds.mem_iff.mp h_d))
  -- then the listings
  obtain ⟨h_visited, h_visited_state⟩ := h_seeded.append (listed.map .listing)
    ((h_listed.nodup_iff.mpr nodup_listings).map fun _ _ h_same => Visit.listing.inj h_same)
    (fun v h_v h_old => by
      obtain ⟨entry, -, rfl⟩ := List.mem_map.mp h_v
      simp at h_old)
    (fun v h_v => by
      obtain ⟨entry, h_entry, rfl⟩ := List.mem_map.mp h_v
      exact h_listed.mem_iff.mp h_entry)
  rw [h_seeded_state, List.foldl_map, List.foldl_map] at h_visited_state
  refine h_rounds.exists_schedule h_visited h_visited_state ?_
  rw [List.append_nil]
  exact (((List.reverse_perm _).trans (h_listed.map _)).append
    ((List.reverse_perm _).trans (h_seeds.map _)))

end Resolver

end GlobalMetadata
