import GlobalMetadata.Proofs.Request

/-!
# One class per key, one id per type

Classes and types are looked up in two tables and kept in two arenas, and resolution creates them
on many paths: as seeds, as members, as nested types, as declaring types, as generic arguments and
on a caller's request. Creating a class creates others first, so that its own key goes in last.

Whatever the history, the tables and the arenas agree, and a class or type that is asked for is the
one that stands under its key. Two facts carry this:

* `Resolving.classOf_key`: a class that is granted has the key that was asked for;
* growth: it has that key forever after, and so has everything else.

`Resolver.ids_identify` puts them together for two calls at any two moments of a history.
-/

namespace GlobalMetadata

namespace Resolving

/-- **What is granted is what was asked for.** A class that is granted stands under the key that
was asked for, whatever was created on the way. -/
theorem classOf_key (m : Metadata) (key : ClassKey) :
    Yields (classOf m key) fun arena id => arena.find? key = some id := by
  intro arena id h
  unfold classOf at h ⊢
  by_cases h_inst : key.isInstantiation
  · rw [if_pos h_inst, result_get_bind] at h
    rw [if_pos h_inst, after_get_bind]
    split at h
    next found h_found =>
      cases h
      exact h_found
    next h_new =>
      -- a new instantiation is inserted under the key itself
      obtain ⟨base, -, h_id, h_after⟩ := exists_of_bind_eq_ok h
      rw [h_after]
      rw [result_get_bind] at h_id
      rw [after_get_bind]
      split at h_id
      next => cases h_id
      next c h_c =>
        exact find?_insert_self _ _ _ h_id
  · rw [if_neg h_inst] at h ⊢
    -- a key without arguments is that of a definition
    have h_key := definitionWithin_key m _ _ arena id h
    rwa [← ClassKey.eq_ofDefinition (Bool.not_eq_true _ ▸ h_inst)] at h_key

end Resolving

namespace Resolver

variable (m : Metadata) (config : Config)

theorem classOf_find? {resolver : Resolver} {key : ClassKey} {id : ClassId}
    (h : (resolver.classOf m key).1 = .ok id) :
    (resolver.classOf m key).2.arena.find? key = some id :=
  Resolving.classOf_key m key resolver.arena id h

theorem intern_type? (resolver : Resolver) (type : ResolvedType) :
    (resolver.intern type).2.arena.type? (resolver.intern type).1 = some type :=
  resolver.arena.type?_intern_self type

/-- The two tables are the inverses of the two arenas. -/
structure Mirrored (resolver : Resolver) : Prop where
  /-- A key leads to an id exactly if the class there has the key. -/
  classes : ∀ key id, resolver.arena.find? key = some id ↔
    ∃ c, resolver.arena.class? id = some c ∧ c.key = key
  /-- No two classes have the same key. -/
  keys : ∀ id id' c c', resolver.arena.class? id = some c → resolver.arena.class? id' = some c' →
    c.key = c'.key → id = id'
  /-- A type leads to an id exactly if it is the type there. -/
  types : ∀ type id, resolver.arena.types.find? type = some id ↔
    resolver.arena.type? id = some type

theorem mirrored (resolver : Resolver) : resolver.Mirrored where
  classes _ _ := Arena.find?_eq_some_iff
  keys _ _ _ _ h h' h_key := Arena.eq_of_key h h' h_key
  types _ _ := TypeTable.find?_eq_some_iff

/-- Two types that are made at any two moments have the same id exactly if they are the same. -/
theorem intern_eq_iff {resolver resolver' : Resolver} {type type' : ResolvedType}
    (h_le : (resolver.intern type).2.arena ≤ resolver'.arena) :
    (resolver.intern type).1 = (resolver'.intern type').1 ↔ type = type' := by
  -- the first type is still there when the second one is made
  have h_first : (resolver'.intern type').2.arena.type? (resolver.intern type).1 = some type :=
    Arena.type?_mono (le_trans h_le (resolver'.arena.le_intern type'))
      (resolver.intern_type? type)
  have h_second := resolver'.intern_type? type'
  constructor
  · intro h_id
    rw [h_id, h_second] at h_first
    exact (Option.some.inj h_first).symm
  · rintro rfl
    have h_id := ((mirrored _).types _ _).mpr h_first
    rw [((mirrored _).types _ _).mpr h_second] at h_id
    exact (Option.some.inj h_id).symm

/-- Two classes that are granted at any two moments have the same id exactly if their keys are the
same. -/
theorem classOf_eq_iff {resolver resolver' : Resolver} {key key' : ClassKey} {id id' : ClassId}
    (h : (resolver.classOf m key).1 = .ok id) (h' : (resolver'.classOf m key').1 = .ok id')
    (h_le : (resolver.classOf m key).2.arena ≤ resolver'.arena) : id = id' ↔ key = key' := by
  -- the first class is still there when the second one is granted
  have h_first : (resolver'.classOf m key').2.arena.find? key = some id :=
    Arena.find?_mono (le_trans h_le (Resolving.grows_classOf m key' resolver'.arena))
      (classOf_find? m h)
  have h_second := classOf_find? m h'
  constructor
  · rintro rfl
    obtain ⟨c, h_c, rfl⟩ := Arena.find?_eq_some_iff.mp h_first
    obtain ⟨c', h_c', rfl⟩ := Arena.find?_eq_some_iff.mp h_second
    rw [Option.some.inj (h_c.symm.trans h_c')]
  · rintro rfl
    exact Option.some.inj (h_first.symm.trans h_second)

/-- **One class per key, one id per type.** A history may hold requests and visits in any order, and
a run is nothing but visits. After any history the tables mirror the arenas; what an id stands for
then, it stands for after any longer history; a type that is made stands under the id that is given;
and two types that are made, or two classes that are granted, at any two moments have the same id
exactly if they are the same type or have the same key. -/
theorem ids_identify (earlier later : List Event) :
    let before := Resolver.empty.replay m config earlier
    (∀ final, before.RunsFrom m config final →
      ∃ visits : List Visit, final = before.replay m config (visits.map .visit)) ∧
    before.Mirrored ∧
    (∀ id c, before.arena.class? id = some c →
      ∃ c', (before.replay m config later).arena.class? id = some c' ∧ c'.key = c.key) ∧
    (∀ id type, before.arena.type? id = some type →
      (before.replay m config later).arena.type? id = some type) ∧
    (∀ type, (before.intern type).2.arena.type? (before.intern type).1 = some type) ∧
    (∀ type type', (before.intern type).1 =
      (((before.intern type).2.replay m config later).intern type').1 ↔ type = type') ∧
    (∀ key key' id id', (before.classOf m key).1 = .ok id →
      (((before.classOf m key).2.replay m config later).classOf m key').1 = .ok id' →
      (id = id' ↔ key = key')) := by
  intro before
  -- everything that is asked later only adds
  have h_le := before.le_replay m config later
  refine ⟨fun _ h_runs => h_runs.exists_replay, mirrored before, ?_,
    fun id type h => Arena.type?_mono h_le h, before.intern_type?,
    fun type type' => intern_eq_iff (le_replay m config _ later), ?_⟩
  · intro id c h_id
    obtain ⟨c', h_id', h_c⟩ := Arena.class?_mono h_le h_id
    exact ⟨c', h_id', h_c.key_eq⟩
  · intro key key' id id' h h'
    exact classOf_eq_iff m h h' (le_replay m config _ later)

end Resolver
end GlobalMetadata
