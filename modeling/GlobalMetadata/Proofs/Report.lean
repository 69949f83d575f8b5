import GlobalMetadata.Proofs.Ledger

/-!
# The report accounts for everything

A report lists the failures of a run and counts its classes. Three kinds of visits share one log,
and the places of their sites decide the order of the list.

* `FailureSite.pack` is the place of a site as a pair of machine words, with the largest word for
  what has no number of its own. As long as no number is that large, pairs are ordered like the
  places here (`FailureSite.pack_lt_iff`), and no two sites share a pair.
* `Resolver.Schedule.failures_perm` says that the report lists what was written down, each failure
  once, and `Resolver.Schedule.failures_ordered` in which order.
* `Resolver.Accounts` puts everything together for a run, and `Resolver.run_accounts` proves it for
  all runs.
-/

namespace GlobalMetadata

/-! ### Places of sites -/

namespace FailureSite

/-- The type definition of a site, if it belongs to one. -/
def definition? : FailureSite → Option Nat
  | .completion definition _ => some definition
  | .creation definition => some definition
  | .listed _ => none

/-- A site comes before another one: by type definition, then completions before the creation, and
last what belongs to no definition. -/
def Precedes : FailureSite → FailureSite → Prop
  | .completion d i, .completion d' i' => d < d' ∨ d = d' ∧ i < i'
  | .completion d _, .creation d' => d ≤ d'
  | .creation d, .completion d' _ => d < d'
  | .creation d, .creation d' => d < d'
  | .completion _ _, .listed _ => True
  | .creation _, .listed _ => True
  | .listed p, .listed p' => p < p'
  | .listed _, .completion _ _ => False
  | .listed _, .creation _ => False

theorem compare_code_eq_lt {a b : FailureSite} :
    compare a.code b.code = .lt ↔ a.Precedes b := by
  cases a <;> cases b <;>
    simp [code, Precedes, Ordering.then_eq_lt, Nat.compare_eq_lt, Nat.le_iff_lt_or_eq]

/-- Whatever comes before a site of a definition belongs to a definition that is not later. -/
theorem Precedes.definition? {a b : FailureSite} (h : a.Precedes b) {e : Nat}
    (h_b : b.definition? = some e) : ∃ d, a.definition? = some d ∧ d ≤ e := by
  cases b with
  | listed position => cases h_b
  | completion definition class_ =>
    cases h_b
    cases a with
    | listed position => exact absurd h id
    | completion d i => exact ⟨d, rfl, by unfold Precedes at h; omega⟩
    | creation d => exact ⟨d, rfl, Nat.le_of_lt h⟩
  | creation definition =>
    cases h_b
    cases a with
    | listed position => exact absurd h id
    | completion d i => exact ⟨d, rfl, h⟩
    | creation d => exact ⟨d, rfl, Nat.le_of_lt h⟩

/-- The largest index of a type definition, which stands for none. -/
def noDefinition : Nat :=
  2 ^ 32 - 1

/-- The largest word, which stands for no class. -/
def noClass : Nat :=
  2 ^ 64 - 1

/-- The place of a site as a pair of words. -/
def pack : FailureSite → Nat × Nat
  | .completion definition class_ => (definition, class_)
  | .creation definition => (definition, noClass)
  | .listed position => (noDefinition, position)

/-- No number of a site is one that stands for none. -/
def Fits : FailureSite → Prop
  | .completion definition class_ => definition < noDefinition ∧ class_ < noClass
  | .creation definition => definition < noDefinition
  | .listed _ => True

/-- **Packing keeps the order** of sites that fit. -/
theorem pack_lt_iff {a b : FailureSite} (h_a : a.Fits) (h_b : b.Fits) :
    (a.pack.1 < b.pack.1 ∨ a.pack.1 = b.pack.1 ∧ a.pack.2 < b.pack.2) ↔ a.Precedes b := by
  cases a <;> cases b <;>
    simp only [Fits, pack, Precedes, iff_true, iff_false, Nat.lt_irrefl, true_and, false_or,
      and_false, or_false] at * <;> omega

/-- **Packing keeps sites apart.** -/
theorem pack_inj {a b : FailureSite} (h_a : a.Fits) (h_b : b.Fits) :
    a.pack = b.pack ↔ a = b := by
  cases a <;> cases b <;>
    simp only [Fits, pack, Prod.mk.injEq, completion.injEq, creation.injEq, listed.injEq,
      reduceCtorEq, iff_false, true_and, and_true] at * <;> omega

end FailureSite

/-! ### The list of failures -/

/-- The values of a log, in the order of its keys. -/
theorem FailureLog.values_eq (log : FailureLog) : log.values = log.toList.map Prod.snd := by
  obtain ⟨log⟩ := log
  -- both lists are read off the tree underneath
  induction log using Std.ExtDTreeMap.inductionOn with
  | _ tree =>
    show tree.inner.values = (Std.DTreeMap.Internal.Impl.Const.toList tree.inner).map Prod.snd
    rw [Std.DTreeMap.Internal.Impl.values_eq_map_snd,
      Std.DTreeMap.Internal.Impl.Const.toList_eq_toListModel_map, List.map_map]
    rfl

namespace Resolver

variable {m : Metadata} {config : Config} {resolver final : Resolver} {visits : List Visit}

/-- A failure is reported if it is written down anywhere. -/
theorem mem_report_iff {f : Failure} :
    f ∈ resolver.report.failures ↔ ∃ code : List Nat, resolver.failures[code]? = some f := by
  rw [report, FailureLog.values_eq, List.mem_map]
  constructor
  · rintro ⟨⟨code, f'⟩, h_entry, rfl⟩
    exact ⟨code, Std.ExtTreeMap.mem_toList_iff_getElem?_eq_some.mp h_entry⟩
  · rintro ⟨code, h_f⟩
    exact ⟨(code, f), Std.ExtTreeMap.mem_toList_iff_getElem?_eq_some.mpr h_f, rfl⟩

theorem definition_of_failure? {v : Visit} {f : Failure}
    (h : failure? m config resolver v = some f) :
    f.definition = (v.site resolver.arena).definition? := by
  cases v <;>
  · rw [failure?, attemptFailure?] at h
    split at h
    · cases h
    · cases h
      rfl

theorem subject_of_failure? {d : Nat} {f : Failure}
    (h : failure? m config resolver (.definition d) = some f) :
    f.subject = s!"type definition {d}" := by
  rw [failure?, attemptFailure?] at h
  split at h
  · cases h
  · cases h
    rfl

/-- What was written down was written down by a visit, at some time. -/
theorem exists_failure?_of_mem_written {entry : FailureSite × Failure}
    (h : entry ∈ written m config visits) :
    ∃ v earlier, entry.1 = v.site (stateAfter m config earlier).arena ∧
      failure? m config (stateAfter m config earlier) v = some entry.2 := by
  induction visits with
  | nil => exact absurd h List.not_mem_nil
  | cons v visits ih =>
    rcases List.mem_append.mp h with h | h
    · obtain ⟨f, h_f, rfl⟩ := Option.map_eq_some_iff.mp (Option.mem_toList.mp h)
      exact ⟨v, visits, rfl, h_f⟩
    · exact ih h

theorem definition_of_mem_written {site : FailureSite} {f : Failure}
    (h : (site, f) ∈ written m config visits) : f.definition = site.definition? := by
  obtain ⟨v, earlier, rfl, h_f⟩ := exists_failure?_of_mem_written h
  exact definition_of_failure? h_f

theorem subject_of_mem_written {d : Nat} {f : Failure}
    (h : (.creation d, f) ∈ written m config visits) : f.subject = s!"type definition {d}" := by
  obtain ⟨v, earlier, h_site, h_f⟩ := exists_failure?_of_mem_written h
  cases v with
  | definition d' =>
    cases h_site
    exact subject_of_failure? h_f
  | listing entry => cases h_site
  | «class» i => cases h_site

/-- **Every failure is listed once.** -/
theorem Schedule.failures_perm (h : Schedule m config visits) :
    (stateAfter m config visits).report.failures.Perm
      ((written m config visits).map Prod.snd) := by
  show (stateAfter m config visits).failures.values.Perm _
  rw [FailureLog.values_eq]
  have h_sites : ((written m config visits).map fun entry => (entry.1.code, entry.2)).Nodup := by
    refine List.Nodup.of_map Prod.fst ?_
    rw [List.map_map]
    have h_codes := h.nodup_sites.map fun _ _ h_same => FailureSite.code_inj.mp h_same
    rwa [List.map_map] at h_codes
  have h_keys : (stateAfter m config visits).failures.toList.Nodup := by
    refine List.Pairwise.imp ?_ Std.ExtTreeMap.distinct_keys_toList
    intro entry entry' h_differ h_same
    exact h_differ (h_same ▸ Std.ReflCmp.compare_self)
  have h_perm := (List.perm_ext_iff_of_nodup h_keys h_sites).mpr fun entry => ?_
  · have h_map := h_perm.map Prod.snd
    rwa [List.map_map] at h_map
  · obtain ⟨code, f⟩ := entry
    rw [Std.ExtTreeMap.mem_toList_iff_getElem?_eq_some, h.getElem?_failures_iff, List.mem_map]
    constructor
    · rintro ⟨site, h_site, rfl⟩
      exact ⟨_, h_site, rfl⟩
    · rintro ⟨⟨site, f'⟩, h_site, h_same⟩
      cases h_same
      exact ⟨site, h_site, rfl⟩

/-- **Failures are listed by type definition**, and last those that belong to none. -/
theorem Schedule.failures_ordered (h : Schedule m config visits) :
    (stateAfter m config visits).report.failures.Pairwise fun f g =>
      ∀ e, g.definition = some e → ∃ d, f.definition = some d ∧ d ≤ e := by
  show (stateAfter m config visits).failures.values.Pairwise _
  rw [FailureLog.values_eq, List.pairwise_map]
  refine List.Pairwise.imp_of_mem ?_ Std.ExtTreeMap.ordered_keys_toList
  rintro ⟨code, f⟩ ⟨code', g⟩ h_f h_g h_lt e h_e
  rw [Std.ExtTreeMap.mem_toList_iff_getElem?_eq_some, h.getElem?_failures_iff] at h_f h_g
  obtain ⟨site, h_site, rfl⟩ := h_f
  obtain ⟨site', h_site', rfl⟩ := h_g
  -- the order of the sites is that of the definitions
  have h_precedes : site.Precedes site' := FailureSite.compare_code_eq_lt.mp h_lt
  rw [definition_of_mem_written h_site'] at h_e
  rw [definition_of_mem_written h_site]
  exact h_precedes.definition? h_e

/-! ### The accounts of a run -/

theorem map_snd_classes (m : Metadata) (resolver : Resolver) :
    (resolver.toGraph m).classes.map Prod.snd =
      resolver.arena.classes.toList.filter (·.isResolved) := by
  have h_fst : (resolver.arena.classes.toList.zipIdx.map fun entry =>
      ((⟨entry.2⟩, entry.1) : ClassId × ResolvedClass)).map Prod.snd =
        resolver.arena.classes.toList := by
    rw [List.map_map]
    exact List.zipIdx_map_fst 0 _
  rw [TypeGraph.classes]
  conv_rhs => rw [← h_fst, List.filter_map]
  rfl

/-- What a run has come to, and what its report says about it. -/
structure Accounts (m : Metadata) (config : Config) (visits : List Visit) (final : Resolver) :
    Prop where
  /-- Every definition, every listing and every class was visited once. -/
  visited : visits.Perm (agenda m config final.arena.classes.size)
  /-- A definition without a class has a failure under its index. -/
  definitions : ∀ d < m.typeDefinitions.size, final.arena.find? (.ofDefinition d) = none →
    ∃ f, final.failures[(FailureSite.creation d).code]? = some f ∧
      f.definition = some d ∧ f.subject = s!"type definition {d}"
  /-- A class is resolved, or has a failure under its definition, and never both. -/
  classes : ∀ id c, final.arena.class? id = some c →
    let failure := final.failures[(FailureSite.completion c.definition id.index).code]?
    c.isResolved = true ∧ failure = none ∨
      c.isResolved = false ∧ ∃ f, failure = some f ∧ f.definition = some c.definition
  /-- A listed instantiation has a type, or a failure without a definition. -/
  listings : ∀ entry ∈ m.listings config,
    let failure := final.failures[(FailureSite.listed entry.2).code]?
    failure = none ∧ (∃ t id, (m.listedMeaning config entry).value = some t ∧
        final.arena.Unfolds t id) ∨
      ∃ f, failure = some f ∧ f.definition = none
  /-- There are no other failures. -/
  sites : ∀ code ∈ final.failures,
    (∃ d < m.typeDefinitions.size, code = (FailureSite.creation d).code) ∨
      (∃ id c, final.arena.class? id = some c ∧
        code = (FailureSite.completion c.definition id.index).code) ∨
      ∃ entry ∈ m.listings config, code = (FailureSite.listed entry.2).code
  /-- No two failures were written down in one place. -/
  distinct : ((written m config visits).map Prod.fst).Nodup
  /-- All failures that were written down are reported, each once. -/
  reported : final.report.failures.Perm ((written m config visits).map Prod.snd)
  /-- They are reported by type definition, and last those that belong to none. -/
  ordered : final.report.failures.Pairwise fun f g =>
    ∀ e, g.definition = some e → ∃ d, f.definition = some d ∧ d ≤ e
  /-- The resolved classes are counted. -/
  counted : final.report.classes = (final.toGraph m).classes.length
  /-- The resolved instantiations are counted. -/
  instantiations : final.report.instantiations =
    ((final.toGraph m).classes.filter (·.2.isInstantiation)).length
  /-- Stored as pairs of words, the places of failures stay apart and in order. -/
  packed : m.typeDefinitions.size ≤ FailureSite.noDefinition →
    final.arena.classes.size ≤ FailureSite.noClass →
      ∀ a b : FailureSite, a.code ∈ final.failures → b.code ∈ final.failures →
        (a.pack = b.pack ↔ a = b) ∧
          (a.pack.1 < b.pack.1 ∨ a.pack.1 = b.pack.1 ∧ a.pack.2 < b.pack.2 ↔
            compare a.code b.code = .lt)

theorem mem_failures_iff {log : FailureLog} {code : List Nat} :
    code ∈ log ↔ ∃ f, log[code]? = some f := by
  rw [Std.ExtTreeMap.mem_iff_isSome_getElem?, Option.isSome_iff_exists]

/-- The failure at a site, if there is one, belongs to the definition of the site. -/
theorem Schedule.exists_failure (h : Schedule m config visits) {site : FailureSite}
    (h_site : site.code ∈ (stateAfter m config visits).failures) :
    ∃ f, (stateAfter m config visits).failures[site.code]? = some f ∧
      (site, f) ∈ written m config visits ∧ f.definition = site.definition? := by
  obtain ⟨f, h_f⟩ := mem_failures_iff.mp h_site
  obtain ⟨site', h_written, h_code⟩ := h.getElem?_failures_iff.mp h_f
  rw [FailureSite.code_inj.mp h_code] at h_written
  exact ⟨f, h_f, h_written, definition_of_mem_written h_written⟩

section Final

variable (h : Schedule m config visits)
  (h_all : visits.Perm (agenda m config (stateAfter m config visits).arena.classes.size))

include h h_all

theorem Schedule.definitions_accounted {d : Nat} (h_d : d < m.typeDefinitions.size)
    (h_none : (stateAfter m config visits).arena.find? (.ofDefinition d) = none) :
    ∃ f, (stateAfter m config visits).failures[(FailureSite.creation d).code]? = some f ∧
      f.definition = some d ∧ f.subject = s!"type definition {d}" := by
  have h_visit : .definition d ∈ visits := h_all.mem_iff.mpr (by simp [agenda, h_d])
  rcases h.ledger.answered _ h_visit with h_failed | ⟨id, h_id⟩
  · obtain ⟨f, h_f, h_written, h_definition⟩ := h.exists_failure h_failed
    exact ⟨f, h_f, h_definition, subject_of_mem_written h_written⟩
  · rw [h_none] at h_id
    cases h_id

theorem Schedule.classes_accounted {id : ClassId} {c : ResolvedClass}
    (h_c : (stateAfter m config visits).arena.class? id = some c) :
    let failure :=
      (stateAfter m config visits).failures[(FailureSite.completion c.definition id.index).code]?
    c.isResolved = true ∧ failure = none ∨
      c.isResolved = false ∧ ∃ f, failure = some f ∧ f.definition = some c.definition := by
  have h_has := Arena.hasClass_iff.mpr ⟨c, h_c⟩
  have h_visit : .class id.index ∈ visits := h_all.mem_iff.mpr (mem_agenda_class.mpr h_has)
  obtain ⟨c', h_c', h_members⟩ := h.ledger.answered _ h_visit
  obtain rfl : c = c' := Option.some.inj (h_c.symm.trans h_c')
  intro failure
  cases h_resolved : c.members with
  | some members =>
    refine .inl ⟨by rw [ResolvedClass.isResolved, h_resolved]; rfl, ?_⟩
    refine Std.ExtTreeMap.getElem?_eq_none fun h_mem => ?_
    rw [h_members.mpr h_mem] at h_resolved
    cases h_resolved
  | none =>
    obtain ⟨f, h_f, -, h_definition⟩ := h.exists_failure (h_members.mp h_resolved)
    exact .inr ⟨by rw [ResolvedClass.isResolved, h_resolved]; rfl, f, h_f, h_definition⟩

theorem Schedule.listings_accounted {entry : Nat × Nat} (h_entry : entry ∈ m.listings config) :
    let failure := (stateAfter m config visits).failures[(FailureSite.listed entry.2).code]?
    failure = none ∧ (∃ t id, (m.listedMeaning config entry).value = some t ∧
        (stateAfter m config visits).arena.Unfolds t id) ∨
      ∃ f, failure = some f ∧ f.definition = none := by
  have h_visit : .listing entry ∈ visits := h_all.mem_iff.mpr (by simp [agenda, h_entry])
  intro failure
  by_cases h_failed : (FailureSite.listed entry.2).code ∈ (stateAfter m config visits).failures
  · obtain ⟨f, h_f, -, h_definition⟩ := h.exists_failure h_failed
    exact .inr ⟨f, h_f, h_definition⟩
  · have h_type := (h.ledger.answered _ h_visit).resolve_left h_failed
    exact .inl ⟨Std.ExtTreeMap.getElem?_eq_none h_failed, h_type⟩

omit h_all in
theorem Schedule.sites_accounted {code : List Nat}
    (h_code : code ∈ (stateAfter m config visits).failures) :
    (∃ d < m.typeDefinitions.size, code = (FailureSite.creation d).code) ∨
      (∃ id c, (stateAfter m config visits).arena.class? id = some c ∧
        code = (FailureSite.completion c.definition id.index).code) ∨
      ∃ entry ∈ m.listings config, code = (FailureSite.listed entry.2).code := by
  obtain ⟨v, h_v, rfl⟩ := h.ledger.sites code h_code
  have h_possible := h.possible h_v
  cases v with
  | definition d => exact .inl ⟨d, h_possible, rfl⟩
  | listing entry => exact .inr (.inr ⟨entry, h_possible, rfl⟩)
  | «class» i =>
    obtain ⟨c, h_c⟩ := Arena.hasClass_iff.mp h_possible
    refine .inr (.inl ⟨⟨i⟩, c, h_c, ?_⟩)
    rw [Visit.site, h_c]
    rfl

omit h_all in
/-- The sites of failures fit into words as long as the tables are not as large as words. -/
theorem Schedule.fits (h_definitions : m.typeDefinitions.size ≤ FailureSite.noDefinition)
    (h_classes : (stateAfter m config visits).arena.classes.size ≤ FailureSite.noClass)
    {site : FailureSite} (h_site : site.code ∈ (stateAfter m config visits).failures) :
    site.Fits := by
  rcases h.sites_accounted h_site with
    ⟨d, h_d, h_code⟩ | ⟨id, c, h_c, h_code⟩ | ⟨entry, -, h_code⟩
  · rw [FailureSite.code_inj.mp h_code]
    exact Nat.lt_of_lt_of_le h_d h_definitions
  · rw [FailureSite.code_inj.mp h_code]
    -- a class is that of a definition with a row
    obtain ⟨lineage, k, h_traces, h_shows⟩ := h.ledger.sound.classes id c h_c
    have h_definition : c.definition = k.definition := h_shows.key.1
    rw [h_definition]
    exact ⟨Nat.lt_of_lt_of_le h_traces.lt_size h_definitions,
      Nat.lt_of_lt_of_le (Arena.hasClass_iff.mpr ⟨c, h_c⟩) h_classes⟩
  · rw [FailureSite.code_inj.mp h_code]
    trivial

theorem Schedule.accounts : Accounts m config visits (stateAfter m config visits) where
  visited := h_all
  definitions _ h_d h_none := h.definitions_accounted h_all h_d h_none
  classes _ _ h_c := h.classes_accounted h_all h_c
  listings _ h_entry := h.listings_accounted h_all h_entry
  sites _ h_code := h.sites_accounted h_code
  distinct := h.nodup_sites
  reported := h.failures_perm
  ordered := h.failures_ordered
  counted := by
    have h_classes := congrArg List.length (map_snd_classes m (stateAfter m config visits))
    rw [List.length_map] at h_classes
    exact h_classes.symm
  instantiations := by
    have h_classes := congrArg (fun l => (l.filter (·.isInstantiation)).length)
      (map_snd_classes m (stateAfter m config visits))
    rw [List.filter_map, List.length_map] at h_classes
    exact h_classes.symm
  packed h_definitions h_classes a b h_a h_b := by
    have h_fits := h.fits h_definitions h_classes h_a
    have h_fits' := h.fits h_definitions h_classes h_b
    rw [FailureSite.compare_code_eq_lt]
    exact ⟨FailureSite.pack_inj h_fits h_fits', FailureSite.pack_lt_iff h_fits h_fits'⟩

end Final

/-- **Nothing is lost.** The run of the program is one of the runs in any order, and each of these
makes its visits by a schedule for which the report accounts. -/
theorem run_accounts (m : Metadata) (config : Config) :
    RunsTo m config (Resolver.empty.run m config) ∧
      ∀ final, RunsTo m config final →
        ∃ visits, Schedule m config visits ∧ stateAfter m config visits = final ∧
          Accounts m config visits final := by
  refine ⟨runsTo_run m config, fun final h_final => ?_⟩
  obtain ⟨visits, h_visits, rfl, h_all⟩ := exists_schedule h_final
  exact ⟨visits, h_visits, rfl, h_visits.accounts h_all⟩

end Resolver

end GlobalMetadata
