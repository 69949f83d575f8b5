import GlobalMetadata.Proofs.Exposure
import GlobalMetadata.Proofs.Spelling

/-!
# Whether a view ends can be read in the tables

A view comes out exactly if nothing that it spells leads into a circle (`TypeGraph.settles_view`).
Both parts are about the graph, that is, about the ids that a run has handed out in its order. Here
they are put in terms of the tables:

* the classes that the modules expose are those for the keys in `Metadata.Shown`, which starts from
  the definitions at the top of modules and goes on to nested classes (`Resolver.exposed_iff`);
* the class for a key leads into a circle if the key does, through the element types of enumerations
  (`Metadata.LeadsRound`, `Resolver.circular_class_iff`). For a type it is a matter of what its
  pointers and references lead to (`Resolver.circular_type_iff`).

Hence the view of a graph comes out exactly if the metadata is `Metadata.Viewable`, in whatever
order a run within the limit on chains was done (`Resolver.exists_view_iff`). Of the configuration
only the bound on depth matters (`Metadata.viewable_congr`).
-/

namespace GlobalMetadata

open Relation

/-! ### What the tables show -/

namespace Metadata

variable (m : Metadata) (config : Config)

/-- The keys of the classes that modules expose. -/
inductive Shown : KeyTerm → Prop
  /-- A definition that a module declares, with members and nothing around it. -/
  | top {image : ImageDefinition} {d : Nat} {lineage : Lineage} (declared : image ∈ m.images)
      (among : d ∈ m.definitionsOf image) (traces : m.Traces d lineage)
      (alone : lineage.outer? = none)
      (resolved : (m.membersMeaning config (.ofDefinition d)).value.isSome = true) :
      Shown (.ofDefinition d)
  /-- A nested class with members. -/
  | nested {outer inner : KeyTerm} {t : MembersTerm} (around : Shown outer)
      (members : (m.membersMeaning config outer).value = some t) (listed : inner ∈ t.nested)
      (resolved : (m.membersMeaning config inner).value.isSome = true) : Shown inner

/-- A key leads, through the element types of enumerations, to one that leads back to itself. -/
def LeadsRound (k : KeyTerm) : Prop :=
  ∃ repeated, ReflTransGen (m.StoresAs config) k repeated ∧
    TransGen (m.StoresAs config) repeated repeated

/-- Pointers and references lead from a type to a class whose key leads into a circle. -/
def PointsRound (t : TypeTerm) : Prop :=
  ∃ k : KeyTerm, t.pointee = k.type ∧ m.LeadsRound config k

/-- Neither a class that is shown nor the type of one of its members leads into a circle. -/
def Viewable : Prop :=
  ∀ k t, m.Shown config k → (m.membersMeaning config k).value = some t →
    ¬ m.LeadsRound config k ∧ ∀ type ∈ t.types, ¬ m.PointsRound config type

variable {m config}

theorem Shown.exists_members {k : KeyTerm} (h : m.Shown config k) :
    ∃ t, (m.membersMeaning config k).value = some t := by
  cases h with
  | top _ _ _ _ h_resolved => exact Option.isSome_iff_exists.mp h_resolved
  | nested _ _ _ h_resolved => exact Option.isSome_iff_exists.mp h_resolved

section Bound

variable {config' : Config} (h_depth : config.maxGenericDepth = config'.maxGenericDepth)

include h_depth

theorem membersMeaning_congr : m.membersMeaning config = m.membersMeaning config' := by
  funext k
  rw [membersMeaning, membersMeaning, h_depth]

theorem storesAs_congr : m.StoresAs config = m.StoresAs config' := by
  funext k k'
  rw [StoresAs, StoresAs, membersMeaning_congr h_depth]

theorem leadsRound_congr : m.LeadsRound config = m.LeadsRound config' := by
  funext k
  rw [LeadsRound, LeadsRound, storesAs_congr h_depth]

theorem pointsRound_congr : m.PointsRound config = m.PointsRound config' := by
  funext t
  rw [PointsRound, PointsRound, leadsRound_congr h_depth]

/-- **The same keys are shown** if the bound on depth is the same. By induction on how one is. -/
theorem Shown.congr {k : KeyTerm} (h : m.Shown config k) : m.Shown config' k := by
  -- each step looks at the configuration through the meaning of members
  have h_same : m.membersMeaning config = m.membersMeaning config' := membersMeaning_congr h_depth
  induction h with
  | top h_declared h_among h_traces h_alone h_resolved =>
    rw [h_same] at h_resolved
    exact .top h_declared h_among h_traces h_alone h_resolved
  | nested _ h_t h_listed h_resolved ih =>
    rw [h_same] at h_t h_resolved
    exact .nested ih h_t h_listed h_resolved

theorem Viewable.congr (h : m.Viewable config) : m.Viewable config' := by
  intro k t h_shown h_t
  rw [← leadsRound_congr h_depth, ← pointsRound_congr h_depth]
  rw [← membersMeaning_congr h_depth] at h_t
  exact h k t (h_shown.congr h_depth.symm) h_t

theorem viewable_congr : m.Viewable config ↔ m.Viewable config' :=
  ⟨.congr h_depth, .congr h_depth.symm⟩

end Bound

end Metadata

/-! ### Circles -/

namespace Resolver

variable {m : Metadata} {config : Config} {resolver final : Resolver}

theorem unfoldsClass_of_find? {d : Nat} {id : ClassId}
    (h : resolver.arena.find? (.ofDefinition d) = some id) :
    resolver.arena.UnfoldsClass (.ofDefinition d) id := by
  obtain ⟨c, h_c, h_key⟩ := Arena.find?_eq_some_iff.mp h
  refine ⟨c, h_c, ?_⟩
  rw [h_key]
  exact Arena.unfoldsKey_ofDefinition.mpr rfl

section Limit

variable (h_limit : m.ChainsInLimit) (h : RunsTo m config final)

include h_limit h

/-- **Circles of classes** are those of their keys. -/
theorem circular_class_iff {k : KeyTerm} {id : ClassId} (h_k : final.arena.UnfoldsClass k id) :
    final.arena.Circular (.class id) ↔ m.LeadsRound config k := by
  rw [h.sound.circular_class_iff]
  constructor
  · rintro ⟨owner, h_way, h_circle⟩
    obtain ⟨repeated, h_stores, h_repeated⟩ : ∃ repeated,
        ReflTransGen (m.StoresAs config) k repeated ∧ final.arena.UnfoldsClass repeated owner := by
      rcases reflTransGen_iff_eq_or_transGen.mp h_way with rfl | h_way
      · exact ⟨k, .refl, h_k⟩
      · obtain ⟨repeated, h_stores, h_repeated⟩ := Arena.storesAs_of_way h.meant h_way h_k
        exact ⟨repeated, h_stores.to_reflTransGen, h_repeated⟩
    -- the circle comes back to the same class, and so to the same key
    obtain ⟨again, h_back, h_again⟩ := Arena.storesAs_of_way h.meant h_circle h_repeated
    obtain rfl := h_again.unique h_repeated
    exact ⟨again, h_stores, h_back⟩
  · rintro ⟨repeated, h_stores, h_back⟩
    obtain ⟨owner, h_way, h_owner⟩ : ∃ owner,
        ReflTransGen final.arena.StoredLike id owner ∧
          final.arena.UnfoldsClass repeated owner := by
      rcases reflTransGen_iff_eq_or_transGen.mp h_stores with rfl | h_stores
      · exact ⟨id, .refl, h_k⟩
      · obtain ⟨owner, h_way, h_owner⟩ := exists_way h_limit h h_stores h_k
        exact ⟨owner, h_way.to_reflTransGen, h_owner⟩
    -- the way back comes to a class for the same key, which is the same class
    obtain ⟨again, h_circle, h_again⟩ := exists_way h_limit h h_back h_owner
    obtain rfl := h_again.inj h_owner
    exact ⟨again, h_way, h_circle⟩

/-- **Circles of types.** -/
theorem circular_type_iff {t : TypeTerm} {id : TypeId} (h_t : final.arena.Unfolds t id) :
    final.arena.Circular (.type id) ↔ m.PointsRound config t := by
  rw [h.sound.circular_type_iff]
  constructor
  · rintro ⟨owner, h_target, h_circular⟩
    obtain ⟨k, h_pointee, h_k⟩ := h_target.exists_key h_t
    exact ⟨k, h_pointee, (circular_class_iff h_limit h h_k).mp h_circular⟩
  · rintro ⟨k, h_pointee, h_round⟩
    obtain ⟨owner, h_target, h_k⟩ := Arena.targets_of_pointee h_t h_pointee
    exact ⟨owner, h_target, (circular_class_iff h_limit h h_k).mpr h_round⟩

/-! ### Classes that are shown -/

/-- Which definitions are at the top of modules can be seen by the metadata. -/
theorem keyOf?_topLevel? {d : Nat} {key : Option KeyTerm} :
    (final.topLevel? d).map final.arena.keyOf? = some key ↔
      key = some (.ofDefinition d) ∧ ∃ lineage, m.Traces d lineage ∧ lineage.outer? = none ∧
        (m.membersMeaning config (.ofDefinition d)).value.isSome = true := by
  rw [Option.map_eq_some_iff]
  constructor
  · rintro ⟨id, h_top, rfl⟩
    obtain ⟨h_found, c, h_c, h_resolved, h_alone⟩ := topLevel?_eq_some_iff.mp h_top
    obtain ⟨c', t, h_c', h_t, h_key⟩ := exists_shown_of_find? h_limit h h_found
    cases h_c.symm.trans h_c'
    obtain ⟨lineage, -, h_traces, h_same⟩ := (shows_iff h_limit h).mp ⟨id, c, h_c, h_t⟩
    rw [h_key] at h_traces h_same
    refine ⟨?_, lineage, h_traces, (declaring_eq_none_iff h.sound h_found h_traces h_c).mp h_alone,
      ?_⟩
    · exact h.sound.keyOf?_eq (unfoldsClass_of_find? h_found)
    · rw [Arena.isResolved_of_classTerm? h_t, h_same] at h_resolved
      exact h_resolved
  · rintro ⟨rfl, lineage, h_traces, h_alone, h_some⟩
    have h_shown : (final.toGraph m).Shows (m.classTerm config (.ofDefinition d) lineage) :=
      (shows_iff h_limit h).mpr ⟨lineage, .definition h_traces, h_traces, rfl⟩
    obtain ⟨id, c, h_found, h_c, h_t⟩ := exists_find?_of_shows h_shown rfl
    refine ⟨id, topLevel?_eq_some_iff.mpr ⟨h_found, c, h_c, ?_, ?_⟩, ?_⟩
    · rw [Arena.isResolved_of_classTerm? h_t]
      exact h_some
    · exact (declaring_eq_none_iff h.sound h_found h_traces h_c).mpr h_alone
    · exact h.sound.keyOf?_eq (unfoldsClass_of_find? h_found)

/-- A class has members exactly if its key is meant to have some. -/
theorem resolved_iff {k : KeyTerm} {id : ClassId} (h_k : final.arena.UnfoldsClass k id) :
    (final.toGraph m).Resolved id ↔ (m.membersMeaning config k).value.isSome = true := by
  constructor
  · rintro ⟨c, h_c, h_resolved⟩
    obtain ⟨members, h_members⟩ := Option.isSome_iff_exists.mp h_resolved
    obtain ⟨k', t, h_k', h_t, -⟩ := h.meant id c members h_c h_members
    obtain rfl := h_k.unique ⟨c, h_c, h_k'⟩
    exact Option.isSome_iff_exists.mpr ⟨t, h_t⟩
  · intro h_some
    obtain ⟨t, h_t⟩ := Option.isSome_iff_exists.mp h_some
    obtain ⟨c, h_c, h_key⟩ := h_k
    exact ⟨c, h_c, isResolved_of_value h_limit h h_c h_key h_t⟩

/-- The members of a class with a key are read off the value for the key. -/
theorem exists_reads {k : KeyTerm} {id : ClassId} (h_k : final.arena.UnfoldsClass k id)
    {t : MembersTerm} (h_t : (m.membersMeaning config k).value = some t) :
    ∃ c members, final.arena.class? id = some c ∧ c.members = some members ∧
      final.arena.ReadsMembers t members := by
  obtain ⟨c, h_c, h_resolved⟩ := (resolved_iff h_limit h h_k).mpr
    (Option.isSome_iff_exists.mpr ⟨t, h_t⟩)
  obtain ⟨members, h_members⟩ := Option.isSome_iff_exists.mp h_resolved
  obtain ⟨k', t', h_k', h_t', h_reads⟩ := h.meant id c members h_c h_members
  obtain rfl := h_k.unique ⟨c, h_c, h_k'⟩
  obtain rfl := Option.some.inj (h_t.symm.trans h_t')
  exact ⟨c, members, h_c, h_members, h_reads⟩

/-- **Only what the tables show is exposed.** By induction on the way from a top-level class. -/
theorem exists_shown_of_exposes {image : Nat} {id : ClassId}
    (h_exposes : (final.toGraph m).Exposes image id) :
    ∃ k, m.Shown config k ∧ final.arena.UnfoldsClass k id := by
  obtain ⟨row, first, top, h_row, h_first, h_top, h_leads⟩ := exposes_iff.mp h_exposes
  induction h_leads with
  | refl =>
    obtain ⟨-, lineage, h_traces, h_alone, h_some⟩ :=
      (keyOf?_topLevel? h_limit h).mp (Option.map_eq_some_iff.mpr ⟨top, h_top, rfl⟩)
    have h_found := (topLevel?_eq_some_iff.mp h_top).1
    exact ⟨.ofDefinition first, .top (Array.mem_of_getElem? h_row) h_first h_traces h_alone h_some,
      unfoldsClass_of_find? h_found⟩
  | @tail outer inner h_before h_nests ih =>
    obtain ⟨k, h_shown, h_k⟩ :=
      ih (exposes_iff.mpr ⟨row, first, top, h_row, h_first, h_top, h_before⟩)
    obtain ⟨⟨c, h_c, h_mem⟩, h_resolved⟩ := h_nests
    -- the class around was shown, so that its members are known
    obtain ⟨t, h_t⟩ := h_shown.exists_members
    obtain ⟨c', members, h_c', h_members, h_reads⟩ := exists_reads h_limit h h_k h_t
    cases h_c.symm.trans h_c'
    rw [ResolvedClass.nested, h_members] at h_mem
    obtain ⟨k', h_listed, h_k'⟩ := exists_left_of_forall₂ h_reads.nested h_mem
    exact ⟨k', .nested h_shown h_t h_listed ((resolved_iff h_limit h h_k').mp h_resolved), h_k'⟩

/-- **All that the tables show is exposed.** By induction on how it is shown. -/
theorem exists_exposes_of_shown {k : KeyTerm} (h_shown : m.Shown config k) :
    ∃ id image, final.arena.UnfoldsClass k id ∧ (final.toGraph m).Exposes image id := by
  induction h_shown with
  | @top row d lineage h_declared h_among h_traces h_alone h_some =>
    obtain ⟨top, h_top, -⟩ := Option.map_eq_some_iff.mp
      ((keyOf?_topLevel? h_limit h).mpr ⟨rfl, lineage, h_traces, h_alone, h_some⟩)
    obtain ⟨image, h_row⟩ := Array.mem_iff_getElem?.mp h_declared
    exact ⟨top, image, unfoldsClass_of_find? (topLevel?_eq_some_iff.mp h_top).1,
      exposes_iff.mpr ⟨row, d, top, h_row, h_among, h_top, .refl⟩⟩
  | nested _ h_t h_listed h_some ih =>
    obtain ⟨outer, image, h_outer, h_exposes⟩ := ih
    obtain ⟨row, first, top, h_row, h_first, h_top, h_leads⟩ := exposes_iff.mp h_exposes
    obtain ⟨c, members, h_c, h_members, h_reads⟩ := exists_reads h_limit h h_outer h_t
    obtain ⟨inner, h_mem, h_inner⟩ := exists_right_of_forall₂ h_reads.nested h_listed
    -- what is nested in the term of members is nested in the class
    have h_nests : (final.toGraph m).Nests outer inner := by
      refine ⟨⟨c, h_c, ?_⟩, (resolved_iff h_limit h h_inner).mpr h_some⟩
      rw [ResolvedClass.nested, h_members]
      exact h_mem
    exact ⟨inner, image, h_inner,
      exposes_iff.mpr ⟨row, first, top, h_row, h_first, h_top, h_leads.tail h_nests⟩⟩

/-! ### Views -/

/-- What is spelled for a class with members is the class and the types of its members. -/
theorem spellable_iff {k : KeyTerm} {id : ClassId} (h_k : final.arena.UnfoldsClass k id)
    {t : MembersTerm} (h_t : (m.membersMeaning config k).value = some t) :
    (final.toGraph m).Spellable id ↔
      ¬ m.LeadsRound config k ∧ ∀ type ∈ t.types, ¬ m.PointsRound config type := by
  obtain ⟨c, members, h_c, h_members, h_reads⟩ := exists_reads h_limit h h_k h_t
  -- fields come first in both lists, and each method with its result before its parameters
  have h_spelled : c.spelled id = .class id :: members.types.map .type := by
    rw [ResolvedClass.spelled, Members.types, ResolvedClass.fields, ResolvedClass.methods,
      h_members]
    simp [List.map_flatMap, Function.comp_def]
  have h_all : (final.toGraph m).Spellable id ↔
      ∀ node ∈ c.spelled id, ¬ final.arena.Circular node := by
    constructor
    · intro h_spellable
      exact h_spellable c h_c
    · intro h_none c' h_c'
      cases h_c.symm.trans h_c'
      exact h_none
  rw [h_all, h_spelled, List.forall_mem_cons, List.forall_mem_map, circular_class_iff h_limit h h_k]
  -- the types of the members are those of their terms, one by one
  refine and_congr_right fun _ => ?_
  constructor
  · intro h_none term h_term
    obtain ⟨type, h_type, h_unfolds⟩ := exists_right_of_forall₂ h_reads.types h_term
    rw [← circular_type_iff h_limit h h_unfolds]
    exact h_none type h_type
  · intro h_none type h_type
    obtain ⟨term, h_term, h_unfolds⟩ := exists_left_of_forall₂ h_reads.types h_type
    rw [circular_type_iff h_limit h h_unfolds]
    exact h_none term h_term

/-- **Whether a view ends can be read in the tables.** -/
theorem exists_view_iff :
    (∃ fuel infos, (final.toGraph m).viewWithin fuel = some infos) ↔ m.Viewable config := by
  have h_settles := (final.toGraph m).settles_view
  have h_condition : (∃ fuel infos, (final.toGraph m).viewWithin fuel = some infos) ↔
      ∀ id, (∃ image, (final.toGraph m).Exposes image id) → (final.toGraph m).Spellable id := by
    constructor
    · rintro ⟨fuel, infos, h_infos⟩
      -- if something shown led into a circle, no number of references would be enough
      by_contra h_not
      cases h_infos.symm.trans ((h_settles.never h_not).2 fuel)
    · intro h_all
      obtain ⟨infos, -, h_infos⟩ := h_settles.enough h_all
      exact ⟨_, infos, h_infos _ (le_refl _)⟩
  rw [h_condition]
  constructor
  · intro h_all k t h_shown h_t
    obtain ⟨id, image, h_k, h_exposes⟩ := exists_exposes_of_shown h_limit h h_shown
    exact (spellable_iff h_limit h h_k h_t).mp (h_all id ⟨image, h_exposes⟩)
  · rintro h_viewable id ⟨image, h_exposes⟩
    obtain ⟨k, h_shown, h_k⟩ := exists_shown_of_exposes h_limit h h_exposes
    obtain ⟨t, h_t⟩ := h_shown.exists_members
    exact (spellable_iff h_limit h h_k h_t).mpr (h_viewable k t h_shown h_t)

end Limit

end Resolver

end GlobalMetadata
