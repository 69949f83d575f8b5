import GlobalMetadata.Proofs.Exposure
import GlobalMetadata.Proofs.Spelling

/-!
# A view is a forest

The tables say twice what is inside what: a definition names the one around it, and has a run of the
ones inside it. The view follows the runs, which may name anything. Still, what a module shows is a
forest, and no class is in it twice:

* within a tree because a class that was met is passed over;
* in two trees because a tree follows, from the inside to the outside, what the definitions name
  (`Resolver.declaredBy_of_nests`). Every class names at most one other, and the top of a tree names
  none, so that a class is under one top only (`Arena.eq_of_outermost`);
* at the top because the run of definitions that a module declares is ascending
  (`Metadata.definitionsOf_ascending`).

Which modules list a class at the top is a matter of these runs alone: every module whose run has
the definition does. Where runs overlap there are several, and the one that is written down in the
class is among them (`Metadata.declares_of_imageOf`). A rendered module has a tree for each class
that the module lists, in the same order (`TypeGraph.map_listing_eq`).

There is no view if something that it would show is stored like itself. What modules list is there
all the same, so that `Resolver.view_isForest` speaks of both.
-/

namespace GlobalMetadata

open Relation

/-! ### The runs of modules -/

namespace Metadata

variable {m : Metadata} {image : ImageDefinition} {d : Nat}

theorem declares_of_mem_definitionsOf (h : d ∈ m.definitionsOf image) :
    declares image d = true := by
  rw [definitionsOf] at h
  rw [declares]
  cases h_start : toIndex? image.typeStart with
  | none =>
    rw [h_start] at h
    exact absurd h List.not_mem_nil
  | some start =>
    rw [h_start] at h
    obtain ⟨h_first, h_last⟩ := List.mem_range'_1.mp h
    have h_inside : d < start + image.typeCount := by omega
    exact Bool.and_eq_true_iff.mpr ⟨decide_eq_true h_first, decide_eq_true h_inside⟩

theorem definitionsOf_ascending (m : Metadata) (image : ImageDefinition) :
    (m.definitionsOf image).Pairwise (· < ·) := by
  rw [definitionsOf]
  cases toIndex? image.typeStart with
  | none => exact .nil
  | some start => exact List.pairwise_lt_range'

/-- The module that counts is one of those that declare the definition. -/
theorem declares_of_imageOf {index : Nat} (h : m.imageOf d = some index) :
    ∃ row, m.images[index]? = some row ∧ declares row d = true := by
  rw [imageOf] at h
  generalize m.images.size = count at h
  induction count with
  | zero => cases h
  | succ count ih =>
    rw [imageAmong] at h
    split at h
    next h_any =>
      cases h
      exact (Option.any_eq_true _ _).mp h_any
    next => exact ih h

end Metadata

/-! ### Following declaring classes -/

namespace Arena

variable {m : Metadata} {arena : Arena} {id outer outer' top top' : ClassId}

theorem DeclaredBy.unique (h : arena.DeclaredBy id outer) (h' : arena.DeclaredBy id outer') :
    outer = outer' := by
  obtain ⟨c, h_c, h_outer⟩ := h
  obtain ⟨c', h_c', h_outer'⟩ := h'
  cases h_c.symm.trans h_c'
  exact Option.some.inj (h_outer.symm.trans h_outer')

/-- A class that no other one declares. -/
def Outermost (arena : Arena) (id : ClassId) : Prop :=
  ∃ c, arena.class? id = some c ∧ c.declaring = none

theorem Outermost.eq_of_path (h : arena.Outermost top)
    (h_path : ReflTransGen arena.DeclaredBy top id) : top = id := by
  rcases ReflTransGen.cases_head h_path with h_same | ⟨outer, ⟨c, h_c, h_outer⟩, -⟩
  · exact h_same
  · obtain ⟨c', h_c', h_none⟩ := h
    cases h_c.symm.trans h_c'
    cases h_none.symm.trans h_outer

/-- **One top.** The way outwards ends at one class only. -/
theorem eq_of_outermost (h : arena.Outermost top) (h' : arena.Outermost top')
    (h_path : ReflTransGen arena.DeclaredBy id top)
    (h_path' : ReflTransGen arena.DeclaredBy id top') : top = top' := by
  have h_unique : Relator.RightUnique arena.DeclaredBy := fun _ _ _ => DeclaredBy.unique
  rcases ReflTransGen.total_of_right_unique h_unique h_path h_path' with h_on | h_on
  · exact h.eq_of_path h_on
  · exact (h'.eq_of_path h_on).symm

/-- Two classes of definitions, of which the first has the definition that comes first. -/
def DefinedBefore (arena : Arena) (id id' : ClassId) : Prop :=
  ∃ d d', arena.find? (.ofDefinition d) = some id ∧ arena.find? (.ofDefinition d') = some id' ∧
    d < d'

end Arena

/-! ### Trees of a view -/

/-- Some trees are a forest without repetition. -/
structure TypeGraph.IsForest (graph : TypeGraph) (trees : List TypeTree) : Prop where
  /-- No class is rendered twice. -/
  nodup : (TypeTree.idsIn trees).Nodup
  /-- Only definitions with members are rendered. -/
  definitions : ∀ id ∈ TypeTree.idsIn trees, ∃ c, graph.class? id = some c ∧
    c.isResolved = true ∧ c.isInstantiation = false
  /-- Nothing declares the classes at the top. -/
  tops : ∀ tree ∈ trees, graph.arena.Outermost tree.info.id
  /-- Every other class is under the class that declares it. -/
  declared : ∀ tree ∈ trees, tree.Follows fun outer inner => graph.arena.DeclaredBy inner outer
  /-- The classes at the top are in the order of their definitions. -/
  ascending : trees.Pairwise fun tree tree' =>
    graph.arena.DefinedBefore tree.info.id tree'.info.id

namespace Resolver

variable {m : Metadata} {config : Config} {resolver final : Resolver} {outer inner id : ClassId}
  {d : Nat}

theorem outermost_of_topLevel? (h : resolver.topLevel? d = some id) :
    resolver.arena.Outermost id := by
  obtain ⟨-, c, h_c, -, h_none⟩ := topLevel?_eq_some_iff.mp h
  exact ⟨c, h_c, h_none⟩

/-- **What is nested names what it is in.** -/
theorem declaredBy_of_nests (h_sound : resolver.arena.Sound m) (h : resolver.arena.Meant m config)
    (h_nests : (resolver.toGraph m).Nests outer inner) :
    resolver.arena.DeclaredBy inner outer := by
  obtain ⟨e, lineage, around, h_e, h_traces, h_around, h_outer⟩ := around_of_nests h h_nests
  obtain ⟨c, lineage', h_c, -, h_traces', h_shows⟩ := h_sound.shows_of_definition h_e
  cases h_traces.unique h_traces'
  have h_encloses := h_shows.declaring
  rw [h_around] at h_encloses
  generalize h_declaring : c.declaring = declaring at h_encloses
  cases h_encloses with
  | nested found =>
    cases h_outer.symm.trans found
    exact ⟨c, h_c, h_declaring⟩

/-- What a top-level class leads to is the class of a definition, and has members. -/
theorem definition_of_leadsTo (h : resolver.arena.Meant m config)
    (h_top : resolver.topLevel? d = some outer)
    (h_leads : (resolver.toGraph m).LeadsTo outer inner) :
    ∃ c, resolver.arena.class? inner = some c ∧ c.isResolved = true ∧
      c.isInstantiation = false := by
  obtain ⟨c, h_c, h_resolved⟩ :=
    TypeGraph.resolved_of_leadsTo (TypeGraph.resolved_of_topLevel? h_top m) h_leads
  have h_found : ∃ e, resolver.arena.find? (.ofDefinition e) = some inner := by
    cases h_leads with
    | refl => exact ⟨d, (topLevel?_eq_some_iff.mp h_top).1⟩
    | tail _ h_nests =>
      obtain ⟨e, -, -, h_e, -⟩ := around_of_nests h h_nests
      exact ⟨e, h_e⟩
  obtain ⟨e, h_e⟩ := h_found
  obtain ⟨c', h_c', h_key⟩ := Arena.find?_eq_some_iff.mp h_e
  cases h_c.symm.trans h_c'
  refine ⟨c, h_c, h_resolved, ?_⟩
  rw [ResolvedClass.isInstantiation, h_key]
  rfl

/-! ### The classes that a module lists -/

/-- The classes at the top of a module. -/
def topsOf (m : Metadata) (resolver : Resolver) (row : ImageDefinition) : List ClassId :=
  (m.definitionsOf row).filterMap resolver.topLevel?

section Tops

variable {row : ImageDefinition}

theorem mem_topsOf_iff : id ∈ topsOf m resolver row ↔
    ∃ d ∈ m.definitionsOf row, resolver.topLevel? d = some id :=
  List.mem_filterMap

/-- Modules list their classes in the order of the definitions. -/
theorem topsOf_ascending (m : Metadata) (resolver : Resolver) (row : ImageDefinition) :
    (topsOf m resolver row).Pairwise resolver.arena.DefinedBefore := by
  refine (m.definitionsOf_ascending row).filterMap _ ?_
  intro d d' h_lt top h_top top' h_top'
  exact ⟨d, d', (topLevel?_eq_some_iff.mp h_top).1, (topLevel?_eq_some_iff.mp h_top').1, h_lt⟩

theorem ne_of_definedBefore (h : resolver.arena.DefinedBefore id inner) : id ≠ inner := by
  rintro rfl
  obtain ⟨d, d', h_d, h_d', h_lt⟩ := h
  exact Nat.ne_of_lt h_lt (eq_of_find? h_d h_d')

theorem topsOf_nodup (m : Metadata) (resolver : Resolver) (row : ImageDefinition) :
    (topsOf m resolver row).Nodup :=
  (topsOf_ascending m resolver row).imp ne_of_definedBefore

/-- A class of a definition that has members and that nothing declares is at the top of the modules
whose run has the definition. -/
theorem mem_topsOf_iff_declares (h : resolver.arena.Sound m) {c : ResolvedClass}
    (h_c : resolver.arena.class? id = some c) (h_resolved : c.isResolved = true)
    (h_plain : c.isInstantiation = false) (h_alone : c.declaring = none) :
    id ∈ topsOf m resolver row ↔ Metadata.declares row c.definition = true := by
  have h_found : resolver.arena.find? (.ofDefinition c.definition) = some id :=
    Arena.find?_eq_some_iff.mpr ⟨c, h_c, ClassKey.eq_ofDefinition h_plain⟩
  rw [mem_topsOf_iff]
  constructor
  · rintro ⟨d, h_d, h_top⟩
    obtain rfl := eq_of_find? h_found (topLevel?_eq_some_iff.mp h_top).1
    exact Metadata.declares_of_mem_definitionsOf h_d
  · intro h_declares
    obtain ⟨_, _, -, -, h_traces, -⟩ := h.shows_of_definition h_found
    exact ⟨c.definition, Metadata.mem_definitionsOf h_declares h_traces.lt_size,
      topLevel?_eq_some_iff.mpr ⟨h_found, c, h_c, h_resolved, h_alone⟩⟩

end Tops

/-- Where modules should list a class of a definition: once in the module that is written down in
the class, and otherwise wherever the run of a module has the definition. -/
structure ListsWhereDeclared (m : Metadata) (c : ResolvedClass) (id : ClassId)
    (tops : List (List ClassId)) : Prop where
  once : ∀ index, c.image = some index → ∃ ids, tops[index]? = some ids ∧ ids.count id = 1
  declared : ∀ (index : Nat) row, m.images[index]? = some row →
    ∃ ids, tops[index]? = some ids ∧ (id ∈ ids ↔ Metadata.declares row c.definition = true)

theorem images_types_getElem? (m : Metadata) (resolver : Resolver) (index : Nat) :
    ((resolver.toGraph m).images.map (·.types))[index]? =
      (m.images[index]?).map (topsOf m resolver) := by
  rw [List.getElem?_map, images_getElem?, Option.map_map]
  rfl

theorem listsWhereDeclared_images (h : resolver.arena.Sound m) {c : ResolvedClass}
    (h_c : resolver.arena.class? id = some c) (h_resolved : c.isResolved = true)
    (h_plain : c.isInstantiation = false) (h_alone : c.declaring = none) :
    ListsWhereDeclared m c id ((resolver.toGraph m).images.map (·.types)) where
  once index h_index := by
    -- the module that is written down declares the definition
    obtain ⟨lineage, k, -, h_shows⟩ := h.classes id c h_c
    have h_definition : k.definition = c.definition := h_shows.key.1.symm
    rw [h_shows.image, h_definition] at h_index
    obtain ⟨row, h_row, h_declares⟩ := Metadata.declares_of_imageOf h_index
    refine ⟨topsOf m resolver row, by rw [images_types_getElem?, h_row, Option.map_some], ?_⟩
    exact List.count_eq_one_of_mem (topsOf_nodup m resolver row)
      ((mem_topsOf_iff_declares h h_c h_resolved h_plain h_alone).mpr h_declares)
  declared index row h_row :=
    ⟨topsOf m resolver row, by rw [images_types_getElem?, h_row, Option.map_some],
      mem_topsOf_iff_declares h h_c h_resolved h_plain h_alone⟩

/-! ### The trees of a module -/

section Trees

variable {row : ImageDefinition} {entry : ImageEntry} {info : ImageInfo} {tree : TypeTree}
  {fuel : Nat} (h_info : (resolver.toGraph m).RendersImage fuel entry info)
  (h_entry : entry.types = topsOf m resolver row)

include h_info h_entry

/-- A tree is there for a class at the top, which leads to everything in the tree. -/
theorem leadsTo_of_mem_types (h_tree : tree ∈ info.types) :
    (∃ d, resolver.topLevel? d = some tree.info.id) ∧
      ∀ id ∈ tree.ids, (resolver.toGraph m).LeadsTo tree.info.id id := by
  obtain ⟨top, h_top, h_tree⟩ := h_info.mem_types_iff.mp h_tree
  rw [h_entry] at h_top
  obtain ⟨d, -, h_top⟩ := mem_topsOf_iff.mp h_top
  obtain ⟨rfl, -, h_follows⟩ := TypeGraph.follows_of_typeInfo h_tree
  exact ⟨⟨d, h_top⟩, fun id h_id => h_follows.path (TypeTree.contains_of_mem_ids h_id)⟩

/-- **The trees of a module are a forest.** -/
theorem isForest_of_renders (h_sound : resolver.arena.Sound m)
    (h : resolver.arena.Meant m config) : (resolver.toGraph m).IsForest info.types := by
  have h_leads {tree : TypeTree} (h_tree : tree ∈ info.types) :=
    leadsTo_of_mem_types h_info h_entry h_tree
  have h_outermost (tree : TypeTree) (h_tree : tree ∈ info.types) :
      resolver.arena.Outermost tree.info.id := by
    obtain ⟨⟨d, h_top⟩, -⟩ := h_leads h_tree
    exact outermost_of_topLevel? h_top
  -- the way from a class of a tree to the top
  have h_path (tree : TypeTree) (h_tree : tree ∈ info.types) (id : ClassId)
      (h_id : id ∈ tree.ids) : ReflTransGen resolver.arena.DeclaredBy id tree.info.id := by
    refine ReflTransGen.swap _ _ (ReflTransGen.mono ?_ _ _ ((h_leads h_tree).2 id h_id))
    exact fun _ _ => declaredBy_of_nests h_sound h
  have h_ascending : info.types.Pairwise fun tree tree' =>
      resolver.arena.DefinedBefore tree.info.id tree'.info.id := by
    have h_tops : info.tops = topsOf m resolver row := by
      refine (h_info.tops_eq fun top h_top => ?_).trans h_entry
      obtain ⟨d, -, h_top⟩ := mem_topsOf_iff.mp (h_entry ▸ h_top)
      exact TypeGraph.resolved_of_topLevel? h_top m
    have h_before := topsOf_ascending m resolver row
    rw [← h_tops] at h_before
    exact List.pairwise_map.mp h_before
  refine ⟨?_, fun id h_id => ?_, h_outermost, fun tree h_tree => ?_, h_ascending⟩
  · rw [TypeTree.idsIn_eq_flatMap, List.nodup_flatMap]
    refine ⟨fun tree h_tree => ?_, ?_⟩
    · obtain ⟨_, -, h_tree⟩ := h_info.mem_types_iff.mp h_tree
      exact TypeGraph.ids_nodup_of_tree h_tree
    · refine h_ascending.imp_of_mem fun h_tree h_tree' h_before => ?_
      intro id h_id h_id'
      exact ne_of_definedBefore h_before (Arena.eq_of_outermost (h_outermost _ h_tree)
        (h_outermost _ h_tree') (h_path _ h_tree id h_id) (h_path _ h_tree' id h_id'))
  · rw [TypeTree.idsIn_eq_flatMap] at h_id
    obtain ⟨tree, h_tree, h_id⟩ := List.mem_flatMap.mp h_id
    obtain ⟨⟨d, h_top⟩, h_all⟩ := h_leads h_tree
    exact definition_of_leadsTo h h_top (h_all id h_id)
  · obtain ⟨_, -, h_tree⟩ := h_info.mem_types_iff.mp h_tree
    obtain ⟨-, -, h_follows⟩ := TypeGraph.follows_of_typeInfo h_tree
    exact h_follows.mono fun _ _ => declaredBy_of_nests h_sound h

end Trees

/-! ### The view -/

/-- What is rendered for a module, module by module. -/
theorem exists_row_of_viewWithin {fuel : Nat} {infos : List ImageInfo}
    (h : (resolver.toGraph m).viewWithin fuel = some infos) {index : Nat} {info : ImageInfo}
    (h_info : infos[index]? = some info) : ∃ row entry, m.images[index]? = some row ∧
      (resolver.toGraph m).RendersImage fuel entry info ∧
        entry.types = topsOf m resolver row := by
  obtain ⟨entry, h_entry, h_renders⟩ :=
    exists_left_of_getElem? (TypeGraph.rendersImage_of_viewWithin h) h_info
  rw [images_getElem?] at h_entry
  obtain ⟨row, h_row, rfl⟩ := Option.map_eq_some_iff.mp h_entry
  exact ⟨row, _, h_row, h_renders, rfl⟩

/-- A rendered graph has at the top what its modules list. -/
theorem map_tops_eq {fuel : Nat} {infos : List ImageInfo}
    (h : (resolver.toGraph m).viewWithin fuel = some infos) :
    infos.map (·.tops) = (resolver.toGraph m).images.map (·.types) := by
  have h_listing := TypeGraph.map_listing_eq TypeGraph.resolved_of_mem_images h
  have h_tops := congrArg (List.map Prod.snd) h_listing
  rwa [List.map_map, List.map_map] at h_tops

/-- **The view is a forest.** Whatever the order of a run, there is a view exactly if nothing that
the modules expose leads into a circle of what is stored like what. If there is one, every module
shows a forest in which no class is repeated. A class of a definition that has members and that
nothing declares is at the top of each module whose run has the definition, and of no other one, and
it is there once in the module that is written down in it. This is so for what modules list, and for
what a view shows of them. -/
theorem view_isForest (h : RunsTo m config final) :
    let graph := final.toGraph m
    Settles (∀ id, (∃ image, graph.Exposes image id) → graph.Spellable id)
      graph.arena.spellingBound graph.viewWithin graph.view? ∧
    (∀ fuel infos, graph.viewWithin fuel = some infos →
      ∀ info ∈ infos, graph.IsForest info.types) ∧
    ∀ id c, graph.class? id = some c → c.isResolved = true → c.isInstantiation = false →
      c.declaring = none →
        ListsWhereDeclared m c id (graph.images.map (·.types)) ∧
        ∀ fuel infos, graph.viewWithin fuel = some infos →
          ListsWhereDeclared m c id (infos.map (·.tops)) := by
  intro graph
  refine ⟨graph.settles_view, fun fuel infos h_infos info h_info => ?_,
    fun id c h_c h_resolved h_plain h_alone => ?_⟩
  · obtain ⟨index, h_index⟩ := List.mem_iff_getElem?.mp h_info
    obtain ⟨_, _, -, h_renders, h_entry⟩ := exists_row_of_viewWithin h_infos h_index
    exact isForest_of_renders h_renders h_entry h.sound h.meant
  · have h_lists := listsWhereDeclared_images h.sound h_c h_resolved h_plain h_alone
    refine ⟨h_lists, fun fuel infos h_infos => ?_⟩
    rwa [map_tops_eq h_infos]

end Resolver

/-! ### A definition that is listed twice -/

/-- Two definitions in a module, the second one inside the first one and listed there twice. Another
module declares the first one, too. -/
def Metadata.repeated : Metadata :=
  { Metadata.torn with
    images := #[⟨0, 0, 0, 2, none, none, none, none, none, none⟩,
      ⟨0, 0, 0, 1, none, none, none, none, none, none⟩]
    typeDefinitions := #[{ nestedRow none with nestedTypeCount := 2 }, nestedRow (some 0)]
    nestedTypes := #[1, 1] }

namespace Resolver

/-- What a run on `repeated` comes to, in one round. -/
def ofRepeated : Resolver :=
  completeRange .repeated Config.minimal.maxGenericDepth 0 2 (empty.start .repeated .minimal)

theorem run_repeated : empty.run .repeated .minimal = ofRepeated :=
  run_of_one_round (by decide +kernel) (by decide +kernel)

/-- Both modules of `repeated` show the first definition, with the second one in it once. -/
theorem view_isForest_repeated :
    let graph := TypeGraph.build .repeated .minimal
    (graph.class? ⟨0⟩).map (·.nested) = some [⟨1⟩, ⟨1⟩] ∧
      ∃ infos c, graph.view? = some infos ∧ (∀ info ∈ infos, graph.IsForest info.types) ∧
        graph.class? ⟨0⟩ = some c ∧ c.image = some 1 ∧ Metadata.repeated.images.size = 2 ∧
          ListsWhereDeclared .repeated c ⟨0⟩ (infos.map (·.tops)) := by
  have h_run := runsTo_run .repeated .minimal
  rw [TypeGraph.build, run_repeated]
  rw [run_repeated] at h_run
  obtain ⟨-, h_forest, h_lists⟩ := view_isForest h_run
  have h_class : (ofRepeated.arena.class? ⟨0⟩).map (fun c => (c.isResolved, c.isInstantiation,
      c.declaring, c.image)) = some (true, false, none, some 1) := by
    decide +kernel
  obtain ⟨c, h_c, h_same⟩ := Option.map_eq_some_iff.mp h_class
  simp only [Prod.mk.injEq] at h_same
  obtain ⟨h_resolved, h_plain, h_alone, h_image⟩ := h_same
  have h_view : (ofRepeated.toGraph .repeated).view?.isSome = true := by decide +kernel
  obtain ⟨infos, h_infos⟩ := Option.isSome_iff_exists.mp h_view
  obtain ⟨-, h_shown⟩ := h_lists ⟨0⟩ c h_c h_resolved h_plain h_alone
  exact ⟨by decide +kernel, infos, c, h_infos, h_forest _ infos h_infos, h_c, h_image, rfl,
    h_shown _ infos h_infos⟩

end Resolver

end GlobalMetadata
