import GlobalMetadata.Proofs.Depth
import GlobalMetadata.Proofs.Report
import GlobalMetadata.Proofs.Repetition

/-!
# Running again

A run that directly follows a run makes all visits once more and finds everything done. Each visit
comes to what it came to the first time, and writes the failure that it wrote down then over itself
(`Resolver.make_tally`). So it creates no class, and all that it changes is the number of
instantiations that were cut off, which it raises by as much as it did the first time
(`Resolver.Settled`). Nothing remembers which instantiations were counted.

The visits of a run are taken one after the other, whatever rounds they are made in
(`Resolver.Makes`), and a run may start from any state. `Resolver.run_again` says what a second run
comes to, for all orders of both runs. The first run has to be conclusive (`Resolver.Conclusive`): a
definition that was refused because too many types lie around it may be granted when classes of
these are there.
-/

namespace GlobalMetadata

namespace Resolver

/-! ### Runs from any state -/

/-- Visits that lead from one state to another, each of them possible when it is made. -/
inductive Makes (m : Metadata) (config : Config) : List Visit → Resolver → Resolver → Prop
  /-- No visit. -/
  | stay (resolver : Resolver) : Makes m config [] resolver resolver
  /-- One visit, and what follows it. -/
  | visit {v : Visit} {visits : List Visit} {resolver final : Resolver}
      (possible : v.Possible m config resolver.arena)
      (rest : Makes m config visits (make m config resolver v) final) :
      Makes m config (v :: visits) resolver final

variable {m : Metadata} {config : Config} {resolver final : Resolver} {visits : List Visit}

theorem Makes.le (h : Makes m config visits resolver final) : resolver.arena ≤ final.arena := by
  induction h with
  | stay => exact le_refl _
  | @visit v _ resolver _ _ _ ih => exact le_trans (le_make m config resolver v) ih

/-- Classes do not become fewer. -/
theorem Makes.size_le (h : Makes m config visits resolver final) :
    resolver.arena.classes.size ≤ final.arena.classes.size := by
  refine Nat.le_of_not_lt fun h_lt => ?_
  have h_last : resolver.arena.HasClass ⟨final.arena.classes.size⟩ := h_lt
  exact Nat.lt_irrefl _ (h_last.mono h.le)

theorem Makes.sound (h : Makes m config visits resolver final) (h_sound : resolver.arena.Sound m) :
    final.arena.Sound m := by
  induction h with
  | stay => exact h_sound
  | visit _ _ ih => exact ih (sound_make h_sound _)

/-- What was visited is still there. -/
theorem Makes.possible (h : Makes m config visits resolver final) :
    ∀ v ∈ visits, v.Possible m config final.arena := by
  induction h with
  | stay => exact fun _ h_v => absurd h_v List.not_mem_nil
  | visit h_possible h_rest ih =>
    exact List.forall_mem_cons.mpr
      ⟨h_possible.mono (le_trans (le_make m config _ _) h_rest.le), ih⟩

theorem Makes.append {more : List Visit} {next : Resolver}
    (h : Makes m config visits resolver next) (h_more : Makes m config more next final) :
    Makes m config (visits ++ more) resolver final := by
  induction h with
  | stay => exact h_more
  | visit h_possible _ ih => exact .visit h_possible (ih h_more)

/-- What is possible at the start stays so. -/
theorem makes_of_possible (h : ∀ v ∈ visits, v.Possible m config resolver.arena) :
    Makes m config visits resolver (visits.foldl (make m config) resolver) := by
  induction visits generalizing resolver with
  | nil => exact .stay resolver
  | cons v visits ih =>
    refine .visit (h v List.mem_cons_self) (ih fun v' h_v' => ?_)
    exact (h v' (List.mem_cons_of_mem v h_v')).mono (le_make m config resolver v)

/-- **All rounds**, by induction on them. -/
theorem Completes.exists_makes {n : Nat}
    (h : Completes m config.maxGenericDepth n resolver final)
    (h_n : n ≤ resolver.arena.classes.size) :
    ∃ order : List Nat, Makes m config (order.map .class) resolver final ∧
      (List.range n ++ order).Perm (List.range final.arena.classes.size) := by
  induction h with
  | @last n resolver h_last =>
    refine ⟨[], .stay resolver, ?_⟩
    rw [List.append_nil, Nat.le_antisymm h_n h_last]
  | @round n order resolver final _ h_order _ ih =>
    have h_round : Makes m config (order.map .class) resolver
        (order.foldl (completeClass m config.maxGenericDepth) resolver) := by
      have h_possible : ∀ v ∈ order.map Visit.class, v.Possible m config resolver.arena := by
        intro v h_v
        obtain ⟨i, h_i, rfl⟩ := List.mem_map.mp h_v
        have h_range := List.mem_range'_1.mp (h_order.mem_iff.mp h_i)
        show i < resolver.arena.classes.size
        omega
      have h_makes := makes_of_possible h_possible
      rwa [List.foldl_map] at h_makes
    obtain ⟨later, h_later, h_all⟩ := ih h_round.size_le
    refine ⟨order ++ later, ?_, ?_⟩
    · rw [List.map_append]
      exact h_round.append h_later
    · -- the classes of the round come after the old ones
      rw [← List.append_assoc]
      refine List.Perm.trans (.append_right later ?_) h_all
      rw [← range_append_range' h_n]
      exact h_order.append_left _

/-- **Runs are visits** to all that there is in the end. -/
theorem RunsFrom.exists_makes (h : RunsFrom m config resolver final) :
    ∃ visits, Makes m config visits resolver final ∧
      visits.Perm (agenda m config final.arena.classes.size) := by
  obtain ⟨seeds, listed, h_seeds, h_listed, h_rounds⟩ := h
  obtain ⟨order, h_classes, h_order⟩ := h_rounds.exists_makes (Nat.zero_le _)
  have h_possible : ∀ v ∈ seeds.map Visit.definition ++ listed.map Visit.listing,
      v.Possible m config resolver.arena := by
    intro v h_v
    rcases List.mem_append.mp h_v with h_v | h_v
    · obtain ⟨d, h_d, rfl⟩ := List.mem_map.mp h_v
      exact List.mem_range.mp (h_seeds.mem_iff.mp h_d)
    · obtain ⟨entry, h_entry, rfl⟩ := List.mem_map.mp h_v
      exact h_listed.mem_iff.mp h_entry
  have h_visits := makes_of_possible h_possible
  rw [List.foldl_append, List.foldl_map, List.foldl_map] at h_visits
  refine ⟨_, h_visits.append h_classes, ?_⟩
  refine List.perm_append_comm.trans ?_
  rw [agenda, List.append_assoc]
  refine (h_order.map _).append ?_
  exact ((h_seeds.map _).append (h_listed.map _)).trans List.perm_append_comm

theorem nodup_agenda (m : Metadata) (config : Config) (classes : Nat) :
    (agenda m config classes).Nodup := by
  have h_classes : ((List.range classes).map Visit.class).Nodup :=
    List.nodup_range.map fun _ _ h_same => Visit.class.inj h_same
  have h_listings : ((m.listings config).map Visit.listing).Nodup :=
    nodup_listings.map fun _ _ h_same => Visit.listing.inj h_same
  have h_definitions : ((List.range m.typeDefinitions.size).map Visit.definition).Nodup :=
    List.nodup_range.map fun _ _ h_same => Visit.definition.inj h_same
  -- visits of different kinds are different
  rw [agenda, List.append_assoc]
  refine h_classes.append (h_listings.append h_definitions fun v h_v h_v' => ?_)
    fun v h_v h_v' => ?_
  · obtain ⟨_, -, rfl⟩ := List.mem_map.mp h_v
    simp at h_v'
  · obtain ⟨_, -, rfl⟩ := List.mem_map.mp h_v
    simp at h_v'

theorem mem_agenda_of_possible {v : Visit} (h : v.Possible m config resolver.arena) :
    v ∈ agenda m config resolver.arena.classes.size := by
  cases v with
  | definition d =>
    exact List.mem_append_right _ (List.mem_map_of_mem (List.mem_range.mpr h))
  | listing entry =>
    exact List.mem_append_left _ (List.mem_append_right _ (List.mem_map_of_mem h))
  | «class» i => exact mem_agenda_class.mpr h

/-! ### What is written down -/

/-- What is written down elsewhere stays. -/
theorem Makes.getElem?_failures (h : Makes m config visits resolver final) {code : List Nat}
    (h_code : ∀ v ∈ visits, (v.site final.arena).code ≠ code) :
    final.failures[code]? = resolver.failures[code]? := by
  induction h with
  | stay => rfl
  | @visit v _ resolver _ h_possible h_rest ih =>
    obtain ⟨h_v, h_code⟩ := List.forall_mem_cons.mp h_code
    rw [ih h_code]
    rw [Visit.site_eq_of_le h_possible (le_trans (le_make m config resolver v) h_rest.le)] at h_v
    exact getElem?_failures_make_of_ne h_v

/-- The failure of a visit that is not made once more is written down in the end. -/
theorem Makes.failure_written {v : Visit}
    (h : Makes m config visits (make m config resolver v) final)
    (h_possible : v.Possible m config resolver.arena) (h_new : v ∉ visits) {f : Failure}
    (h_f : failure? m config resolver v = some f) :
    final.failures[(v.site resolver.arena).code]? = some f := by
  rw [h.getElem?_failures fun v' h_v' h_code => ?_]
  · exact getElem?_failures_make.mpr (.inl ⟨h_f, rfl⟩)
  · -- the site belongs to this visit
    have h_same := Visit.eq_of_site_eq (h.possible v' h_v') h_possible
      (FailureSite.code_inj.mp h_code)
    exact h_new (h_same ▸ h_v')

/-! ### Visits made again -/

/-- The state with so many more instantiations cut off. -/
def tally (resolver : Resolver) (n : Nat) : Resolver :=
  { resolver with arena := resolver.arena.tally n }

@[simp] theorem tally_zero : resolver.tally 0 = resolver := rfl

theorem tally_tally (n k : Nat) : (resolver.tally n).tally k = resolver.tally (n + k) :=
  congrArg (Resolver.mk · resolver.failures) (Arena.tally_tally n k)

/-- How many instantiations a visit cuts off. -/
def cutBy (m : Metadata) (config : Config) (resolver : Resolver) (v : Visit) : Nat :=
  (make m config resolver v).arena.truncated - resolver.arena.truncated

/-- No definition was refused that may be granted when more classes are there. -/
def Conclusive (m : Metadata) (resolver : Resolver) : Prop :=
  m.TowersInLimit ∨ ∀ (code : List Nat) (f : Failure), resolver.failures[code]? = some f →
    ∀ definition, f.error ≠ .unresolved (.declaringChain definition declaringLimit)

/-- A state without failures is conclusive. -/
theorem conclusive_of_report (h : resolver.report.failures = []) : resolver.Conclusive m := by
  refine .inr fun code f h_f => ?_
  have h_failure : f ∈ resolver.report.failures := mem_report_iff.mpr ⟨code, h_f⟩
  rw [h] at h_failure
  exact absurd h_failure List.not_mem_nil

section Again

variable {first : Resolver} {v : Visit}

/-- A class keeps its definition. -/
theorem definition_eq_of_le {arena arena' : Arena} (h_le : arena ≤ arena') {id : ClassId}
    (h_id : arena.HasClass id) :
    (arena'.class? id).elim 0 (·.definition) = (arena.class? id).elim 0 (·.definition) := by
  obtain ⟨c, h_c⟩ := Arena.hasClass_iff.mp h_id
  obtain ⟨c', h_c', h_grows⟩ := Arena.class?_mono h_le h_c
  rw [h_c, h_c']
  exact congrArg ClassKey.definition h_grows.key_eq

/-- A class is displayed in the same way later on. -/
theorem classFullDisplay_eq_of_le {arena arena' : Arena} (h : arena.Sound m)
    (h' : arena'.Sound m) (h_le : arena ≤ arena') {id : ClassId} (h_id : arena.HasClass id) :
    arena'.classFullDisplay id = arena.classFullDisplay id := by
  obtain ⟨c, h_c⟩ := Arena.hasClass_iff.mp h_id
  obtain ⟨_, k, -, h_shows⟩ := h.classes id c h_c
  obtain ⟨c', h_c', h_grows⟩ := Arena.class?_mono h_le h_c
  have h_k : arena'.UnfoldsKey k c'.key := h_grows.key_eq ▸ h_shows.key.mono h_le
  rw [h.classFullDisplay_eq h_c h_shows.key, h'.classFullDisplay_eq h_c' h_k]

/-- An attempt made again comes to the same. -/
theorem attempt_again {α : Type} {step : Resolving α} {site site' : FailureSite}
    {describe describe' : Arena → Option Nat × String}
    (h : Resolving.Repeats m first.arena step)
    (h_steady : m.TowersInLimit ∨ ∀ f, first.attemptFailure? step describe = some f →
      ∀ definition, f.error ≠ .unresolved (.declaringChain definition declaringLimit))
    (h_describe : ∀ arena, (first.attempt step site describe).arena ≤ arena → arena.Sound m →
      describe' arena = describe (first.attempt step site describe).arena)
    (h_le : (first.attempt step site describe).arena ≤ final.arena)
    (h_sound : final.arena.Sound m) :
    final.attemptFailure? step describe' = first.attemptFailure? step describe ∧
      (final.attempt step site' describe').arena = final.arena.tally
        ((first.attempt step site describe).arena.truncated - first.arena.truncated) := by
  rw [attempt_arena] at h_describe h_le
  have h_step : Resolving.Steady m first.arena step :=
    h_steady.imp_right fun h_other definition h_error =>
      h_other ⟨_, _, _⟩ (by rw [attemptFailure?, h_error]) definition rfl
  obtain ⟨h_result, h_after⟩ := h.again h_step final.arena h_le h_sound
  rw [attempt_arena, attempt_arena]
  refine ⟨?_, h_after⟩
  rw [attemptFailure?, attemptFailure?, h_result, h_after, h_describe _ ?_ (h_sound.tally _)]
  exact le_trans h_le (final.arena.le_tally _)

/-- **A visit made again** fails as it did, and only counts. -/
theorem make_again (h : first.arena.Sound m) (h_v : v.Possible m config first.arena)
    (h_steady : m.TowersInLimit ∨ ∀ f, failure? m config first v = some f →
      ∀ definition, f.error ≠ .unresolved (.declaringChain definition declaringLimit))
    (h_le : (make m config first v).arena ≤ final.arena) (h_sound : final.arena.Sound m) :
    failure? m config final v = failure? m config first v ∧
      (make m config final v).arena = final.arena.tally (cutBy m config first v) := by
  cases v with
  | definition d =>
    rw [failure?] at h_steady
    exact attempt_again (Resolving.repeats_definition h d) h_steady (fun _ _ _ => rfl) h_le h_sound
  | listing entry =>
    rw [failure?] at h_steady
    exact attempt_again (Resolving.repeats_listed config.maxGenericDepth h entry.1) h_steady
      (fun _ _ _ => rfl) h_le h_sound
  | «class» i =>
    rw [failure?] at h_steady
    rw [failure?, failure?, make, cutBy, make, completeClass, completeClass]
    refine attempt_again (Resolving.repeats_complete config.maxGenericDepth h ⟨i⟩ h_v) h_steady
      (fun arena h_arena h_arena' => ?_) h_le h_sound
    -- the class has its definition and its name from the start
    have h_made := le_make m config first (.class i)
    rw [classFullDisplay_eq_of_le h h_arena' (le_trans h_made h_arena) h_v,
      ← classFullDisplay_eq_of_le h (sound_make h (.class i)) h_made h_v,
      definition_eq_of_le (le_trans h_made h_le) h_v]
    rfl

/-- The same where more instantiations were cut off, together with what is written down. -/
theorem make_tally (h : first.arena.Sound m) (h_v : v.Possible m config first.arena)
    (h_conclusive : final.Conclusive m)
    (h_written : ∀ f, failure? m config first v = some f →
      final.failures[(v.site first.arena).code]? = some f)
    (h_le : (make m config first v).arena ≤ final.arena) (h_sound : final.arena.Sound m)
    (k : Nat) : make m config (final.tally k) v = final.tally (k + cutBy m config first v) := by
  have h_tally := le_trans h_le (final.arena.le_tally k)
  obtain ⟨h_failure, h_arena⟩ := make_again h h_v
    (h_conclusive.imp_right fun h_other f h_f => h_other _ f (h_written f h_f))
    (show _ ≤ (final.tally k).arena from h_tally) (h_sound.tally k)
  have h_site : v.site (final.tally k).arena = v.site first.arena :=
    Visit.site_eq_of_le h_v (le_trans (le_make m config first v) h_tally)
  have h_failures : (make m config (final.tally k) v).failures = (final.tally k).failures := by
    rw [failures_make, h_failure, h_site]
    cases h_f : failure? m config first v with
    | none => rfl
    | some f =>
      -- the failure is there already
      refine Std.ExtTreeMap.ext_getElem? fun code => ?_
      show (final.failures.insert _ f)[code]? = _
      rw [Std.ExtTreeMap.getElem?_insert]
      split
      next h_code =>
        rw [← Std.compare_eq_iff_eq.mp h_code]
        exact (h_written f h_f).symm
      next => rfl
  calc make m config (final.tally k) v
    _ = ⟨(make m config (final.tally k) v).arena, (make m config (final.tally k) v).failures⟩ := rfl
    _ = (final.tally k).tally (cutBy m config first v) := by
      rw [h_arena, h_failures]
      rfl
    _ = final.tally (k + cutBy m config first v) := tally_tally k _

end Again

/-! ### The second run -/

/-- Every visit that is possible has been made: made again it only counts. -/
def Settled (m : Metadata) (config : Config) (resolver : Resolver) : Prop :=
  ∀ v, v.Possible m config resolver.arena → ∀ k,
    make m config (resolver.tally k) v = resolver.tally (k + cutBy m config resolver v)

/-- **What was visited is settled**, by induction on the visits, and what was cut off is what the
visits would cut off once more. -/
theorem Makes.settled (h : Makes m config visits resolver final) (h_sound : resolver.arena.Sound m)
    (h_nodup : visits.Nodup) (h_conclusive : final.Conclusive m) :
    (∀ v ∈ visits, ∀ k,
        make m config (final.tally k) v = final.tally (k + cutBy m config final v)) ∧
      final.arena.truncated =
        resolver.arena.truncated + (visits.map (cutBy m config final)).sum := by
  induction h with
  | stay => exact ⟨fun _ h_v => absurd h_v List.not_mem_nil, rfl⟩
  | @visit v visits resolver final h_possible h_rest ih =>
    obtain ⟨h_new, h_nodup⟩ := List.nodup_cons.mp h_nodup
    have h_next : (make m config resolver v).arena.Sound m := sound_make h_sound v
    obtain ⟨h_later, h_truncated⟩ := ih h_next h_nodup h_conclusive
    have h_tally := make_tally h_sound h_possible h_conclusive
      (fun f => h_rest.failure_written h_possible h_new) h_rest.le (h_rest.sound h_next)
    -- it cuts off as much in the end as it did when it was made
    have h_cut : cutBy m config final v = cutBy m config resolver v := by
      have h_zero := h_tally 0
      rw [tally_zero, Nat.zero_add] at h_zero
      rw [cutBy, h_zero]
      exact Nat.add_sub_cancel_left _ _
    refine ⟨List.forall_mem_cons.mpr ⟨fun k => h_cut ▸ h_tally k, h_later⟩, ?_⟩
    have h_made := (le_make m config resolver v).truncated
    rw [h_truncated, List.map_cons, List.sum_cons, h_cut, cutBy]
    omega

/-- What visits lead to from a settled state, by induction on them. -/
theorem Settled.makes (h : Settled m config resolver) {k : Nat}
    (h_makes : Makes m config visits (resolver.tally k) final) :
    final = resolver.tally (k + (visits.map (cutBy m config resolver)).sum) := by
  induction visits generalizing k with
  | nil =>
    cases h_makes
    rfl
  | cons v visits ih =>
    cases h_makes with
    | visit h_possible h_rest =>
      rw [h v h_possible k] at h_rest
      rw [ih h_rest, List.map_cons, List.sum_cons, Nat.add_assoc]

/-- **A conclusive run settles everything.** -/
theorem RunsFrom.settled (h : RunsFrom m config resolver final) (h_sound : resolver.arena.Sound m)
    (h_conclusive : final.Conclusive m) :
    Settled m config final ∧ final.arena.truncated = resolver.arena.truncated +
      ((agenda m config final.arena.classes.size).map (cutBy m config final)).sum := by
  obtain ⟨visits, h_makes, h_agenda⟩ := h.exists_makes
  have h_nodup := h_agenda.nodup_iff.mpr (nodup_agenda m config _)
  obtain ⟨h_settled, h_truncated⟩ := h_makes.settled h_sound h_nodup h_conclusive
  refine ⟨fun v h_v => h_settled v (h_agenda.mem_iff.mpr (mem_agenda_of_possible h_v)), ?_⟩
  rw [h_truncated, (h_agenda.map _).sum_eq]

/-- A second run only counts, and as much as the first one. -/
theorem RunsFrom.eq_tally {once twice : Resolver} (h_once : RunsFrom m config resolver once)
    (h_twice : RunsFrom m config once twice) (h_sound : resolver.arena.Sound m)
    (h_conclusive : once.Conclusive m) :
    twice = once.tally (once.arena.truncated - resolver.arena.truncated) := by
  obtain ⟨h_settled, h_truncated⟩ := h_once.settled h_sound h_conclusive
  obtain ⟨visits, h_makes, h_agenda⟩ := h_twice.exists_makes
  have h_eq := h_settled.makes (k := 0) h_makes
  rw [h_eq] at h_agenda
  rw [h_eq, Nat.zero_add, (h_agenda.map _).sum_eq, h_truncated, Nat.add_sub_cancel_left]
  rfl

/-- Nothing has changed but for the instantiations that were cut off since the first state: they
have been counted once more. -/
structure CountedAgain (m : Metadata) (start once twice : Resolver) : Prop where
  /-- The classes are the same, and so are their members. -/
  classes : twice.arena.classes = once.arena.classes
  types : twice.arena.types = once.arena.types
  failures : twice.failures = once.failures
  images : (twice.toGraph m).images = (once.toGraph m).images
  /-- The report is the same, but for one count. -/
  report : twice.report = { once.report with truncated := twice.report.truncated }
  /-- This count has grown as much as before. -/
  truncated : twice.report.truncated + start.report.truncated = 2 * once.report.truncated
  /-- Nothing at all has changed exactly if nothing was cut off. -/
  same : twice = once ↔ once.report.truncated = start.report.truncated

theorem countedAgain_tally {start once : Resolver} (h : start.arena ≤ once.arena) :
    CountedAgain m start once (once.tally (once.arena.truncated - start.arena.truncated)) where
  classes := rfl
  types := rfl
  failures := rfl
  images := rfl
  report := rfl
  truncated := by
    have h_truncated := h.truncated
    show once.arena.truncated + (once.arena.truncated - start.arena.truncated) +
      start.arena.truncated = 2 * once.arena.truncated
    omega
  same := by
    have h_truncated := h.truncated
    show _ ↔ once.arena.truncated = start.arena.truncated
    constructor
    · intro h_same
      have h_count : once.arena.truncated + (once.arena.truncated - start.arena.truncated) =
        once.arena.truncated := congrArg (·.arena.truncated) h_same
      omega
    · intro h_none
      rw [h_none, Nat.sub_self, tally_zero]

/-- **Running again.** After a run from any state that a caller can see, in any order, a second run
takes nothing back. If the first one was conclusive, the second one creates nothing, completes
nothing, and reports the same; but it counts all instantiations that were cut off once more. -/
theorem run_again (h : Reachable m config resolver) :
    RunsFrom m config resolver (resolver.run m config) ∧
      ∀ once, RunsFrom m config resolver once →
        RunsFrom m config once (once.run m config) ∧
          ∀ twice, RunsFrom m config once twice →
            once.arena ≤ twice.arena ∧
              (once.Conclusive m → CountedAgain m resolver once twice) := by
  refine ⟨runsFrom_run h.sound, fun once h_once => ?_⟩
  refine ⟨runsFrom_run (h_once.sound h.sound), fun twice h_twice => ?_⟩
  refine ⟨h_twice.le, fun h_conclusive => ?_⟩
  rw [h_once.eq_tally h_twice h.sound h_conclusive]
  exact countedAgain_tally h_once.le

/-- Without any depth the instantiation in `boxed` is cut off, and either run counts it. -/
theorem run_again_boxed :
    let config := { Config.minimal with maxGenericDepth := 0 }
    let once := empty.run .boxed config
    let twice := once.run .boxed config
    once.report = ⟨[], 2, 0, 1⟩ ∧ twice.report = ⟨[], 2, 0, 2⟩ := by
  intro config once twice
  have h_run : once = completeRange .boxed 0 0 2 (empty.start .boxed config) :=
    run_of_one_round (by decide +kernel) (by decide +kernel)
  have h_report : once.report = ⟨[], 2, 0, 1⟩ := by
    rw [h_run]
    decide +kernel
  have h_empty : Reachable .boxed config .empty := .empty
  obtain ⟨h_once, h_again⟩ := run_again h_empty
  obtain ⟨h_twice, h_counts⟩ := h_again once h_once
  obtain ⟨-, h_counted⟩ := h_counts twice h_twice
  have h_same := h_counted (conclusive_of_report (congrArg Report.failures h_report))
  have h_truncated := h_same.truncated
  rw [h_report] at h_truncated
  refine ⟨h_report, h_same.report.trans ?_⟩
  rw [h_report]
  exact congrArg (Report.mk [] 2 0) h_truncated

end Resolver

end GlobalMetadata
