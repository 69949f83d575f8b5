import GlobalMetadata.Proofs.Creation
import GlobalMetadata.Proofs.Visit

/-!
# What a run writes down

A visit that fails is written down under its site. `Resolver.written` are the failures of a
schedule, each with its site, and `Resolver.Schedule.getElem?_failures_iff` says that the log holds
exactly these: nothing is overwritten, because every visit has a site of its own
(`Resolver.Schedule.nodup_sites`).

What a visit leaves behind if it does *not* fail is `Visit.Answered`: a definition has a class, a
listed instantiation has a type, and a class has members. Later visits do not take it back, so that
it can be read off the state in which a run ends (`Resolver.Schedule.ledger`). No order is assumed
here and no limit on chains.
-/

namespace GlobalMetadata

namespace Resolver

/-! ### Failures of visits -/

section Failures

variable {α : Type} (resolver : Resolver) (step : Resolving α) (site : FailureSite)
  (describe : Arena → Option Nat × String)

/-- What an attempt writes down. -/
def attemptFailure? : Option Failure :=
  match Resolving.result step resolver.arena with
  | .ok _ => none
  | .error error =>
    let (definition, subject) := describe (Resolving.after step resolver.arena)
    some ⟨definition, subject, error⟩

theorem failures_attempt :
    (resolver.attempt step site describe).failures =
      (resolver.attemptFailure? step describe).elim resolver.failures
        (resolver.failures.record site) := by
  rw [attempt, attemptFailure?, ← perform_result, ← perform_arena]
  have h_failures : (resolver.perform step).2.failures = resolver.failures := rfl
  rcases h_step : resolver.perform step with ⟨result, next⟩
  rw [h_step] at h_failures
  rw [← h_failures]
  cases result <;> rfl

theorem attemptFailure?_eq_none_iff :
    resolver.attemptFailure? step describe = none ↔
      ∃ a, Resolving.result step resolver.arena = .ok a := by
  rw [attemptFailure?]
  cases Resolving.result step resolver.arena with
  | ok a => exact iff_of_true rfl ⟨a, rfl⟩
  | error e =>
    refine iff_of_false (fun h => by cases h) ?_
    rintro ⟨a, h_a⟩
    cases h_a

/-- **A step is written down if it fails**, and what was written down stays. -/
theorem mem_failures_attempt {other : FailureSite} :
    other.code ∈ (resolver.attempt step site describe).failures ↔
      other.code ∈ resolver.failures ∨
        other = site ∧ ∃ e, Resolving.result step resolver.arena = .error e := by
  have h_error : (∃ e, Resolving.result step resolver.arena = .error e) ↔
      resolver.attemptFailure? step describe ≠ none := by
    rw [← Resolving.not_succeeds_iff, ne_eq, attemptFailure?_eq_none_iff]
    exact Iff.rfl
  rw [h_error, failures_attempt]
  cases resolver.attemptFailure? step describe with
  | none => simp
  | some f =>
    -- a failure is written down under the site and nowhere else
    show other.code ∈ resolver.failures.insert site.code f ↔ _
    rw [Std.ExtTreeMap.mem_insert, Std.compare_eq_iff_eq, FailureSite.code_inj, or_comm, eq_comm]
    simp

theorem mem_failures_attempt_of_ne {other : FailureSite} (h_other : other ≠ site) :
    other.code ∈ (resolver.attempt step site describe).failures ↔
      other.code ∈ resolver.failures :=
  (mem_failures_attempt ..).trans (or_iff_left fun h_same => h_other h_same.1)

end Failures

/-- What a visit writes down. -/
def failure? (m : Metadata) (config : Config) (resolver : Resolver) : Visit → Option Failure
  | .definition d =>
    resolver.attemptFailure? (Resolving.definition m d) fun _ => (some d, s!"type definition {d}")
  | .listing (address, _) =>
    resolver.attemptFailure? (Resolving.listed m config.maxGenericDepth address) fun _ =>
      (none, s!"generic class 0x{Numeral.hex address}")
  | .class i =>
    resolver.attemptFailure? (Resolving.complete m config.maxGenericDepth ⟨i⟩) fun arena =>
      (some ((resolver.arena.class? ⟨i⟩).elim 0 (·.definition)), arena.classFullDisplay ⟨i⟩)

/-- The failures of a schedule with their sites, the latest one first. -/
def written (m : Metadata) (config : Config) : List Visit → List (FailureSite × Failure)
  | [] => []
  | v :: visits =>
    let resolver := stateAfter m config visits
    ((failure? m config resolver v).map (v.site resolver.arena, ·)).toList ++
      written m config visits

variable {m : Metadata} {config : Config} {resolver : Resolver} {visits : List Visit} {v : Visit}

theorem failures_make :
    (make m config resolver v).failures =
      (failure? m config resolver v).elim resolver.failures
        (resolver.failures.record (v.site resolver.arena)) := by
  cases v <;> exact failures_attempt ..

theorem getElem?_failures_make {code : List Nat} {f : Failure} :
    (make m config resolver v).failures[code]? = some f ↔
      failure? m config resolver v = some f ∧ (v.site resolver.arena).code = code ∨
        (failure? m config resolver v = none ∨ (v.site resolver.arena).code ≠ code) ∧
          resolver.failures[code]? = some f := by
  rw [failures_make]
  cases h : failure? m config resolver v with
  | none => simp
  | some g =>
    show (resolver.failures.insert _ g)[code]? = some f ↔ _
    rw [Std.ExtTreeMap.getElem?_insert]
    by_cases h_code : (v.site resolver.arena).code = code
    · rw [if_pos (Std.compare_eq_iff_eq.mpr h_code)]
      simp [h_code]
    · rw [if_neg (mt Std.compare_eq_iff_eq.mp h_code)]
      simp [h_code]

/-- Nothing else is written down at another place. -/
theorem getElem?_failures_make_of_ne {code : List Nat} (h : (v.site resolver.arena).code ≠ code) :
    (make m config resolver v).failures[code]? = resolver.failures[code]? :=
  Option.ext fun _ => getElem?_failures_make.trans
    ⟨fun h_cases => h_cases.elim (fun h_new => absurd h_new.2 h) (·.2),
      fun h_old => .inr ⟨.inr h, h_old⟩⟩

/-- **A visit is written down if it fails**, and what was written down stays. -/
theorem mem_failures_make {code : List Nat} :
    code ∈ (make m config resolver v).failures ↔
      code ∈ resolver.failures ∨
        code = (v.site resolver.arena).code ∧ failure? m config resolver v ≠ none := by
  rw [failures_make]
  cases failure? m config resolver v with
  | none => simp
  | some g =>
    show code ∈ resolver.failures.insert _ g ↔ _
    rw [Std.ExtTreeMap.mem_insert, Std.compare_eq_iff_eq, or_comm, eq_comm]
    simp

/-! ### What is left behind -/

end Resolver

/-- A visit has failed, or what it is made for is there. -/
def Visit.Answered (m : Metadata) (config : Config) (resolver : Resolver) : Visit → Prop
  | .definition d =>
    (FailureSite.creation d).code ∈ resolver.failures ∨
      ∃ id, resolver.arena.find? (.ofDefinition d) = some id
  | .listing entry =>
    (FailureSite.listed entry.2).code ∈ resolver.failures ∨
      ∃ t id, (m.listedMeaning config entry).value = some t ∧ resolver.arena.Unfolds t id
  | .class i =>
    ∃ c, resolver.arena.class? ⟨i⟩ = some c ∧
      (c.members = none ↔ (FailureSite.completion c.definition i).code ∈ resolver.failures)

namespace Resolver

/-- What is known after visits, whatever order they were made in. -/
structure Ledger (m : Metadata) (config : Config) (visits : List Visit) (resolver : Resolver) :
    Prop where
  sound : resolver.arena.Sound m
  answered : ∀ v ∈ visits, v.Answered m config resolver
  /-- A class that was not visited has no members. -/
  pending : ∀ id c, resolver.arena.class? id = some c → .class id.index ∉ visits → c.members = none
  /-- Nothing but visits is written down. -/
  sites : ∀ code ∈ resolver.failures, ∃ v ∈ visits, code = (v.site resolver.arena).code

variable {m : Metadata} {config : Config} {resolver : Resolver} {visits : List Visit} {v : Visit}

theorem ledger_empty (m : Metadata) (config : Config) : Ledger m config [] .empty where
  sound := Arena.sound_empty m
  answered _ h_v := absurd h_v List.not_mem_nil
  pending _ _ h_c := by cases h_c
  sites _ h_code := absurd h_code Std.ExtTreeMap.not_mem_empty

/-- What an earlier visit has left behind is not taken back. -/
theorem answered_make (h : resolver.arena.Sound m) {v' : Visit} (h_ne : v' ≠ v)
    (h_v' : v'.Answered m config resolver) : v'.Answered m config (make m config resolver v) := by
  have h_le : resolver.arena ≤ (make m config resolver v).arena := le_make m config resolver v
  have h_log {code : List Nat} (h_code : code ∈ resolver.failures) :
      code ∈ (make m config resolver v).failures := mem_failures_make.mpr (.inl h_code)
  cases v' with
  | definition d =>
    refine h_v'.imp h_log ?_
    rintro ⟨id, h_id⟩
    exact ⟨id, Arena.find?_mono h_le h_id⟩
  | listing entry =>
    refine h_v'.imp h_log ?_
    rintro ⟨t, id, h_t, h_id⟩
    exact ⟨t, id, h_t, h_id.mono h_le⟩
  | «class» i =>
    obtain ⟨c, h_c, h_members⟩ := h_v'
    -- the class is not the one that is visited now
    obtain ⟨c', h_c', -⟩ := Arena.class?_mono h_le h_c
    have h_old : resolver.arena.class? ⟨i⟩ = some c' := by
      have h_other : v ≠ .class (ClassId.mk i).index := h_ne.symm
      rcases class?_make h h_other h_c' with h_old | ⟨h_new, -⟩
      · exact h_old
      · exact absurd (Arena.hasClass_iff.mpr ⟨c, h_c⟩) h_new
    rw [h_c] at h_old
    cases h_old
    refine ⟨c, h_c', h_members.trans ?_⟩
    rw [mem_failures_make]
    refine (or_iff_left ?_).symm
    rintro ⟨h_site, -⟩
    cases v with
    | definition d => cases FailureSite.code_inj.mp h_site
    | listing entry => cases FailureSite.code_inj.mp h_site
    | «class» j =>
      rw [(FailureSite.completion.inj (FailureSite.code_inj.mp h_site)).2] at h_ne
      exact h_ne rfl

/-- Nothing is written down under the site of a visit before it is made. -/
theorem Ledger.not_mem_failures (h : Ledger m config visits resolver)
    (h_old : ∀ v' ∈ visits, v'.Possible m config resolver.arena) (h_new : v ∉ visits)
    (h_possible : v.Possible m config resolver.arena) :
    (v.site resolver.arena).code ∉ resolver.failures := by
  intro h_mem
  obtain ⟨v', h_v', h_code⟩ := h.sites _ h_mem
  have h_site := FailureSite.code_inj.mp h_code
  exact h_new (Visit.eq_of_site_eq h_possible (h_old v' h_v') h_site ▸ h_v')

/-- **A visit is answered** when it is made. -/
theorem Ledger.answered_self (h : Ledger m config visits resolver)
    (h_old : ∀ v' ∈ visits, v'.Possible m config resolver.arena) (h_new : v ∉ visits)
    (h_possible : v.Possible m config resolver.arena) :
    v.Answered m config (make m config resolver v) := by
  have h_site : (v.site resolver.arena).code ∈ (make m config resolver v).failures ↔
      failure? m config resolver v ≠ none := by
    rw [mem_failures_make, or_iff_right (h.not_mem_failures h_old h_new h_possible)]
    exact and_iff_right rfl
  cases v with
  | definition d =>
    by_cases h_failure : failure? m config resolver (.definition d) = none
    · rw [failure?, attemptFailure?_eq_none_iff] at h_failure
      obtain ⟨id, h_id⟩ := h_failure
      obtain ⟨_, -, -, h_found⟩ := (Resolving.definition_follows h.sound d).value id h_id
      refine .inr ⟨id, ?_⟩
      rw [make, seed, attempt_arena]
      exact h_found
    · exact .inl (h_site.mpr h_failure)
  | listing entry =>
    by_cases h_failure : failure? m config resolver (.listing entry) = none
    · rw [failure?, attemptFailure?_eq_none_iff] at h_failure
      obtain ⟨id, h_id⟩ := h_failure
      obtain ⟨t, h_t, h_unfolds⟩ :=
        (Resolving.listed_follows config.maxGenericDepth h.sound entry.1).value id h_id
      refine .inr ⟨t, id, h_t, ?_⟩
      rw [make, seedListed, attempt_arena]
      exact h_unfolds
    · exact .inl (h_site.mpr h_failure)
  | «class» i =>
    obtain ⟨c, h_c⟩ := Arena.hasClass_iff.mp h_possible
    have h_bare := h.pending ⟨i⟩ c h_c h_new
    obtain ⟨c', h_c', h_key, h_members⟩ :=
      Resolving.class?_complete_self config.maxGenericDepth h.sound h_c h_bare
    refine ⟨c', ?_, ?_⟩
    · rw [make, completeClass, attempt_arena]
      exact h_c'
    · have h_failure : failure? m config resolver (.class i) ≠ none ↔ c'.members = none := by
        rw [h_members, ← Resolving.not_succeeds_iff, failure?, ne_eq, attemptFailure?_eq_none_iff]
        rfl
      rw [← h_failure, ← h_site, Visit.site, h_c, ResolvedClass.definition, h_key]
      rfl

theorem Ledger.make (h : Ledger m config visits resolver)
    (h_old : ∀ v' ∈ visits, v'.Possible m config resolver.arena) (h_new : v ∉ visits)
    (h_possible : v.Possible m config resolver.arena) :
    Ledger m config (v :: visits) (make m config resolver v) where
  sound := sound_make h.sound v
  answered := by
    refine List.forall_mem_cons.mpr ⟨h.answered_self h_old h_new h_possible, fun v' h_v' => ?_⟩
    refine answered_make h.sound (fun h_same => h_new (h_same ▸ h_v')) (h.answered v' h_v')
  pending id c h_c h_id := by
    obtain ⟨h_v, h_id⟩ := List.ne_and_not_mem_of_not_mem_cons h_id
    rcases class?_make h.sound h_v.symm h_c with h_there | ⟨-, h_bare⟩
    · exact h.pending id c h_there h_id
    · exact h_bare
  sites code h_code := by
    have h_le : resolver.arena ≤ (Resolver.make m config resolver v).arena :=
      le_make m config resolver v
    rcases mem_failures_make.mp h_code with h_code | ⟨h_code, -⟩
    · obtain ⟨v', h_v', h_site⟩ := h.sites code h_code
      refine ⟨v', List.mem_cons_of_mem v h_v', ?_⟩
      rw [Visit.site_eq_of_le (h_old v' h_v') h_le, h_site]
    · refine ⟨v, List.mem_cons_self, ?_⟩
      rw [Visit.site_eq_of_le h_possible h_le, h_code]

/-- **The ledger of a schedule.** -/
theorem Schedule.ledger (h : Schedule m config visits) :
    Ledger m config visits (stateAfter m config visits) := by
  induction h with
  | start => exact ledger_empty m config
  | next before h_new h_possible ih => exact ih.make (fun _ => before.possible) h_new h_possible

/-! ### The log -/

/-- What was written down belongs to a visit that was made. -/
theorem Schedule.exists_of_mem_written (h : Schedule m config visits)
    {entry : FailureSite × Failure} (h_entry : entry ∈ written m config visits) :
    ∃ v ∈ visits, entry.1 = v.site (stateAfter m config visits).arena := by
  induction h with
  | start => exact absurd h_entry List.not_mem_nil
  | @next visits v before h_new h_possible ih =>
    have h_le := le_make m config (stateAfter m config visits) v
    rcases List.mem_append.mp h_entry with h_entry | h_entry
    · obtain ⟨f, -, rfl⟩ := Option.map_eq_some_iff.mp (Option.mem_toList.mp h_entry)
      exact ⟨v, List.mem_cons_self, (Visit.site_eq_of_le h_possible h_le).symm⟩
    · obtain ⟨v', h_v', h_site⟩ := ih h_entry
      refine ⟨v', List.mem_cons_of_mem v h_v', h_site.trans ?_⟩
      exact (Visit.site_eq_of_le (before.possible h_v') h_le).symm

/-- **Every visit has a site of its own**, so that no failure is written over another one. -/
theorem Schedule.nodup_sites (h : Schedule m config visits) :
    ((written m config visits).map Prod.fst).Nodup := by
  induction h with
  | start => exact List.nodup_nil
  | @next visits v before h_new h_possible ih =>
    rw [written, List.map_append]
    refine List.nodup_append.mpr ⟨?_, ih, fun site h_site site' h_site' h_same => ?_⟩
    · cases failure? m config (stateAfter m config visits) v with
      | none => exact List.nodup_nil
      | some f => exact List.nodup_singleton _
    · obtain ⟨entry, h_entry, rfl⟩ := List.mem_map.mp h_site
      obtain ⟨f, -, rfl⟩ := Option.map_eq_some_iff.mp (Option.mem_toList.mp h_entry)
      obtain ⟨entry', h_entry', rfl⟩ := List.mem_map.mp h_site'
      obtain ⟨v', h_v', h_owner⟩ := before.exists_of_mem_written h_entry'
      -- the site would belong to an earlier visit, too
      have h_v := Visit.eq_of_site_eq h_possible (before.possible h_v') (h_same.trans h_owner)
      exact h_new (h_v ▸ h_v')

/-- **The log holds what was written down**, and nothing else. -/
theorem Schedule.getElem?_failures_iff (h : Schedule m config visits) {code : List Nat}
    {f : Failure} :
    (stateAfter m config visits).failures[code]? = some f ↔
      ∃ site, (site, f) ∈ written m config visits ∧ site.code = code := by
  induction h with
  | start =>
    refine iff_of_false (fun h_code => ?_) fun ⟨_, h_mem, _⟩ => absurd h_mem List.not_mem_nil
    exact absurd (Std.ExtTreeMap.mem_iff_isSome_getElem?.mpr (Option.isSome_of_eq_some h_code))
      Std.ExtTreeMap.not_mem_empty
  | @next visits v before h_new h_possible ih =>
    rw [stateAfter, getElem?_failures_make, ih]
    -- an earlier entry is not overwritten
    have h_other {site : FailureSite} (h_site : (site, f) ∈ written m config visits) :
        (v.site (stateAfter m config visits).arena).code ≠ site.code := by
      intro h_same
      obtain ⟨v', h_v', h_owner⟩ := before.exists_of_mem_written h_site
      have h_v := Visit.eq_of_site_eq h_possible (before.possible h_v')
        ((FailureSite.code_inj.mp h_same).trans h_owner)
      exact h_new (h_v ▸ h_v')
    constructor
    · rintro (⟨h_failure, rfl⟩ | ⟨-, site, h_site, rfl⟩)
      · refine ⟨_, List.mem_append_left _ ?_, rfl⟩
        rw [h_failure]
        exact List.mem_singleton_self _
      · exact ⟨site, List.mem_append_right _ h_site, rfl⟩
    · rintro ⟨site, h_site, rfl⟩
      rcases List.mem_append.mp h_site with h_site | h_site
      · obtain ⟨f', h_failure, h_same⟩ := Option.map_eq_some_iff.mp (Option.mem_toList.mp h_site)
        cases h_same
        exact .inl ⟨h_failure, rfl⟩
      · exact .inr ⟨.inr (h_other h_site), site, h_site, rfl⟩

end Resolver

end GlobalMetadata
