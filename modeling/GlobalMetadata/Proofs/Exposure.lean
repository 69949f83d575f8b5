import GlobalMetadata.Proofs.Isolation
import GlobalMetadata.Proofs.Nesting
import GlobalMetadata.Proofs.Omission

/-!
# What a view exposes

A class is rendered in the view of a module if one of the top-level types of the module leads to it,
through classes nested in each other. For the class of a definition that is a matter of the types
around it. If each of them is listed by the next one, and the outermost one belongs to the module,
then the class is rendered if all of them have members (`Resolver.leadsTo_of_listed`), and only if
(`Resolver.resolves_of_leadsTo`).

So a class with members is missing from every view if one of the types around it has none, although
the other listings of the graph have it. `Resolver.rendered_iff_torn` is an example.
-/

namespace GlobalMetadata

/-! ### Types around, resolved and listed -/

namespace Lineage

/-- The outermost definition. -/
def outermost : Lineage → Nat
  | .top _ frame => frame.definition
  | .nested _ outer => outer.outermost

theorem outermost_mem (lineage : Lineage) : lineage.outermost ∈ lineage.definitions := by
  induction lineage with
  | top _ _ => exact List.mem_cons_self
  | nested frame _ ih => exact List.mem_cons_of_mem frame.definition ih

/-- Every definition is in the run of nested types of the definition around it. -/
def Listed (m : Metadata) : Lineage → Prop
  | .top _ _ => True
  | .nested frame outer => m.Lists outer.frame.row frame.definition ∧ outer.Listed m

end Lineage

namespace TypeGraph

/-- Every definition of a chain has a class with members. -/
def Resolves (graph : TypeGraph) (lineage : Lineage) : Prop :=
  ∀ d ∈ lineage.definitions, ∃ id, graph.lookup (.ofDefinition d) = some id ∧ graph.Resolved id

/-- The definition itself and the types around it, one after the other. -/
theorem resolves_iff {m : Metadata} {d : Nat} {lineage : Lineage} (graph : TypeGraph)
    (h : m.Traces d lineage) :
    graph.Resolves lineage ↔
      (∃ id, graph.lookup (.ofDefinition d) = some id ∧ graph.Resolved id) ∧
        ∀ around, lineage.outer? = some around → graph.Resolves around := by
  obtain rfl := h.frame_definition
  unfold Resolves
  cases lineage with
  | top _ frame =>
    show (∀ d ∈ [frame.definition], _) ↔ _
    rw [List.forall_mem_singleton]
    exact ⟨fun h_d => ⟨h_d, fun _ h_none => by cases h_none⟩, fun h_d => h_d.1⟩
  | nested frame outer =>
    show (∀ d ∈ frame.definition :: outer.definitions, _) ↔ _
    rw [List.forall_mem_cons]
    refine and_congr_right fun _ => ⟨fun h_outer around h_around => ?_, fun h_around => ?_⟩
    · cases h_around
      exact h_outer
    · exact h_around outer rfl

end TypeGraph

/-- A definition that there is, and that a module declares, is in the run of the module. -/
theorem Metadata.mem_definitionsOf {m : Metadata} {image : ImageDefinition} {d : Nat}
    (h : declares image d = true) (h_size : d < m.typeDefinitions.size) :
    d ∈ m.definitionsOf image := by
  rw [declares] at h
  rw [definitionsOf]
  cases h_start : toIndex? image.typeStart with
  | none =>
    rw [h_start] at h
    cases h
  | some start =>
    rw [h_start] at h
    obtain ⟨h_first, h_last⟩ := Bool.and_eq_true_iff.mp h
    have h_first := of_decide_eq_true h_first
    have h_last := of_decide_eq_true h_last
    refine List.mem_range'_1.mpr ⟨h_first, ?_⟩
    omega

namespace Resolver

variable {m : Metadata} {config : Config} {resolver final : Resolver} {top id : ClassId} {d : Nat}
  {lineage : Lineage}

/-- A top-level class has members and no class around it. -/
theorem topLevel?_eq_some_iff :
    resolver.topLevel? d = some id ↔ resolver.arena.find? (.ofDefinition d) = some id ∧
      ∃ c, resolver.arena.class? id = some c ∧ c.isResolved = true ∧ c.declaring = none := by
  constructor
  · intro h
    obtain ⟨id', h_found, h⟩ := Option.bind_eq_some_iff.mp h
    obtain ⟨c, h_c, h⟩ := Option.bind_eq_some_iff.mp h
    split at h
    next h_shown =>
      cases h
      obtain ⟨h_resolved, h_none⟩ := Bool.and_eq_true_iff.mp h_shown
      exact ⟨h_found, c, h_c, h_resolved, Option.isNone_iff_eq_none.mp h_none⟩
    next => cases h
  · rintro ⟨h_found, c, h_c, h_resolved, h_none⟩
    refine Option.bind_eq_some_iff.mpr ⟨id, h_found, Option.bind_eq_some_iff.mpr ⟨c, h_c, ?_⟩⟩
    exact if_pos (Bool.and_eq_true_iff.mpr ⟨h_resolved, Option.isNone_iff_eq_none.mpr h_none⟩)

/-- The class of a definition shows whether a definition is around it. -/
theorem declaring_eq_none_iff (h : resolver.arena.Sound m)
    (h_found : resolver.arena.find? (.ofDefinition d) = some id) (h_traces : m.Traces d lineage)
    {c : ResolvedClass} (h_c : resolver.arena.class? id = some c) :
    c.declaring = none ↔ lineage.outer? = none := by
  obtain ⟨c', lineage', h_c', -, h_traces', h_shows⟩ := h.shows_of_definition h_found
  cases h_c.symm.trans h_c'
  cases h_traces.unique h_traces'
  have h_encloses := h_shows.declaring
  generalize c.declaring = declaring at h_encloses
  generalize lineage.outer? = outer at h_encloses
  cases h_encloses with
  | top => exact iff_of_true rfl rfl
  | nested _ => exact iff_of_false (Option.some_ne_none _) (Option.some_ne_none _)

/-- A class is that of one definition. -/
theorem eq_of_find? {d' : Nat} (h : resolver.arena.find? (.ofDefinition d) = some id)
    (h' : resolver.arena.find? (.ofDefinition d') = some id) : d = d' := by
  obtain ⟨c, h_c, h_key⟩ := Arena.find?_eq_some_iff.mp h
  obtain ⟨c', h_c', h_key'⟩ := Arena.find?_eq_some_iff.mp h'
  cases h_c.symm.trans h_c'
  exact congrArg ClassKey.definition (h_key.symm.trans h_key')

/-! ### Ways to a class -/

/-- **Only if.** What a top-level class leads to has members, and so have the types around it. By
induction on the way, which goes through all of them. -/
theorem resolves_of_leadsTo (h_sound : resolver.arena.Sound m) (h : resolver.arena.Meant m config)
    {first : Nat} (h_top : resolver.topLevel? first = some top)
    (h_leads : (resolver.toGraph m).LeadsTo top id)
    (h_found : resolver.arena.find? (.ofDefinition d) = some id) (h_traces : m.Traces d lineage) :
    (resolver.toGraph m).Resolves lineage := by
  induction h_leads generalizing d lineage with
  | refl =>
    obtain ⟨h_first, c, h_c, h_resolved, h_none⟩ := topLevel?_eq_some_iff.mp h_top
    obtain rfl := eq_of_find? h_found h_first
    -- nothing is around a top-level type
    have h_alone := (declaring_eq_none_iff h_sound h_found h_traces h_c).mp h_none
    refine (TypeGraph.resolves_iff _ h_traces).mpr ⟨⟨top, h_found, c, h_c, h_resolved⟩, ?_⟩
    intro around h_around
    rw [h_alone] at h_around
    cases h_around
  | tail _ h_nests ih =>
    obtain ⟨e, lineage', around, h_e, h_traces', h_around, h_outer⟩ := around_of_nests h h_nests
    obtain rfl := eq_of_find? h_found h_e
    obtain rfl := h_traces.unique h_traces'
    refine (TypeGraph.resolves_iff _ h_traces).mpr ⟨⟨_, h_found, h_nests.2⟩, ?_⟩
    intro around' h_around'
    cases h_around.symm.trans h_around'
    exact ih h_outer (h_traces.outer h_around)

/-- **If.** The class of the outermost type around leads to the class of a definition, if each type
is listed by the next one and all of them have members. By induction on the types around. -/
theorem leadsTo_of_listed (h_sound : resolver.arena.Sound m) (h : resolver.arena.Meant m config)
    (h_found : resolver.arena.find? (.ofDefinition d) = some id) (h_traces : m.Traces d lineage)
    (h_listed : lineage.Listed m) (h_resolves : (resolver.toGraph m).Resolves lineage) :
    ∃ top, resolver.topLevel? lineage.outermost = some top ∧
      (resolver.toGraph m).LeadsTo top id := by
  induction lineage generalizing d id with
  | top namespaceName frame =>
    obtain rfl : frame.definition = d := h_traces.frame_definition
    obtain ⟨⟨id', h_found', c, h_c, h_resolved⟩, -⟩ :=
      (TypeGraph.resolves_iff _ h_traces).mp h_resolves
    cases h_found.symm.trans h_found'
    have h_alone := (declaring_eq_none_iff h_sound h_found h_traces h_c).mpr rfl
    exact ⟨id, topLevel?_eq_some_iff.mpr ⟨h_found, c, h_c, h_resolved, h_alone⟩, .refl⟩
  | nested frame outer ih =>
    obtain rfl : frame.definition = d := h_traces.frame_definition
    obtain ⟨⟨id', h_found', h_id⟩, h_rest⟩ := (TypeGraph.resolves_iff _ h_traces).mp h_resolves
    cases h_found.symm.trans h_found'
    have h_outer := h_traces.outer rfl
    -- the class around has members, too, and has the one at hand nested in it
    obtain ⟨⟨around, h_around, h_resolved⟩, -⟩ :=
      (TypeGraph.resolves_iff _ h_outer).mp (h_rest outer rfl)
    obtain ⟨h_lists, h_listed⟩ := h_listed
    obtain ⟨top, h_top, h_leads⟩ := ih h_around h_outer h_listed (h_rest outer rfl)
    exact ⟨top, h_top, h_leads.tail
      (nests_of_lists h h_around h_found h_outer.typeDefinition_eq h_lists h_resolved h_id)⟩

/-! ### The view -/

theorem images_getElem? (m : Metadata) (resolver : Resolver) (image : Nat) :
    (resolver.toGraph m).images[image]? = (m.images[image]?).map fun row =>
      ⟨(m.imageName image).getD "", (m.definitionsOf row).filterMap resolver.topLevel?⟩ := by
  show (List.map _ m.images.toList.zipIdx)[image]? = _
  rw [List.getElem?_map, List.getElem?_zipIdx, Array.getElem?_toList, Option.map_map, Nat.zero_add]
  rfl

/-- What a module exposes: whatever its top-level classes lead to. -/
theorem exposes_iff {image : Nat} : (resolver.toGraph m).Exposes image id ↔
    ∃ row first top, m.images[image]? = some row ∧ first ∈ m.definitionsOf row ∧
      resolver.topLevel? first = some top ∧ (resolver.toGraph m).LeadsTo top id := by
  unfold TypeGraph.Exposes
  rw [images_getElem?]
  constructor
  · rintro ⟨_, top, h_entry, h_top, -, h_leads⟩
    obtain ⟨row, h_row, rfl⟩ := Option.map_eq_some_iff.mp h_entry
    obtain ⟨first, h_first, h_top⟩ := List.mem_filterMap.mp h_top
    exact ⟨row, first, top, h_row, h_first, h_top, h_leads⟩
  · rintro ⟨row, first, top, h_row, h_first, h_top, h_leads⟩
    exact ⟨_, top, Option.map_eq_some_iff.mpr ⟨row, h_row, rfl⟩,
      List.mem_filterMap.mpr ⟨first, h_first, h_top⟩, TypeGraph.resolved_of_topLevel? h_top m,
      h_leads⟩

/-- **What a view exposes.** Consider a class with members, of a definition whose outermost type
belongs to a module, where every type around is the one that lists the next. If rendering the graph
comes to an end, the module shows the class exactly if the types around it have members, too; and if
one of them has none, then no module shows the class. Whether or not it comes to an end, the same
goes for the classes that the modules expose. -/
theorem rendered_iff (h : RunsTo m config final)
    (h_found : (final.toGraph m).lookup (.ofDefinition d) = some id)
    (h_resolved : (final.toGraph m).Resolved id) (h_traces : m.Traces d lineage) {image : Nat}
    {row : ImageDefinition} (h_image : m.images[image]? = some row)
    (h_declares : Metadata.declares row lineage.outermost = true) (h_listed : lineage.Listed m) :
    let graph := final.toGraph m
    ((graph.Exposes image id ↔ ∀ around, lineage.outer? = some around → graph.Resolves around) ∧
      ∀ around, lineage.outer? = some around → ¬ graph.Resolves around →
        ∀ image', ¬ graph.Exposes image' id) ∧
    ∀ fuel infos, graph.viewWithin fuel = some infos →
      (Renders infos image id ↔
        ∀ around, lineage.outer? = some around → graph.Resolves around) ∧
      ∀ around, lineage.outer? = some around → ¬ graph.Resolves around →
        ∀ image', ¬ Renders infos image' id := by
  intro graph
  -- whatever module exposes the class, the types around it have members
  have h_only {image' : Nat} (h_exposes : graph.Exposes image' id) {around : Lineage}
      (h_around : lineage.outer? = some around) : graph.Resolves around := by
    obtain ⟨_, first, top, -, -, h_top, h_leads⟩ := exposes_iff.mp h_exposes
    have h_all := resolves_of_leadsTo h.sound h.meant h_top h_leads h_found h_traces
    exact ((TypeGraph.resolves_iff _ h_traces).mp h_all).2 around h_around
  have h_if (h_around : ∀ around, lineage.outer? = some around → graph.Resolves around) :
      graph.Exposes image id := by
    have h_all := (TypeGraph.resolves_iff _ h_traces).mpr ⟨⟨id, h_found, h_resolved⟩, h_around⟩
    obtain ⟨top, h_top, h_leads⟩ :=
      leadsTo_of_listed h.sound h.meant h_found h_traces h_listed h_all
    obtain ⟨_, h_outermost, -⟩ := h_traces.exists_of_mem lineage.outermost_mem
    have h_first := Metadata.mem_definitionsOf h_declares h_outermost.lt_size
    exact exposes_iff.mpr ⟨row, _, top, h_image, h_first, h_top, h_leads⟩
  have h_exposes : (graph.Exposes image id ↔
        ∀ around, lineage.outer? = some around → graph.Resolves around) ∧
      ∀ around, lineage.outer? = some around → ¬ graph.Resolves around →
        ∀ image', ¬ graph.Exposes image' id :=
    ⟨⟨fun h_exposes _ h_around => h_only h_exposes h_around, h_if⟩,
      fun _ h_around h_not _ h_exposes => h_not (h_only h_exposes h_around)⟩
  refine ⟨h_exposes, fun fuel infos h_infos => ?_⟩
  simp only [TypeGraph.renders_iff_exposes h_infos]
  exact h_exposes

end Resolver

/-! ### A definition inside a broken one -/

/-- Two definitions in one module, the second one inside the first one and listed there. The first
one has a field that is not in the table. -/
def Metadata.torn : Metadata :=
  { Metadata.bare with
    strings := nestStrings
    images := #[⟨0, 0, 0, 2, none, none, none, none, none, none⟩]
    typeDefinitions := #[
      { nestedRow none with fieldCount := 1, nestedTypeCount := 1 },
      nestedRow (some 0)]
    nestedTypes := #[1]
    registration :=
      { Metadata.bare.registration with
        types := #[⟨0, .classType, 0, false, false, .definition 0⟩] } }

namespace Metadata

/-- The chain of the first definition of `torn`. -/
def tornOuter : Lineage :=
  .top "" ⟨0, { nestedRow none with fieldCount := 1, nestedTypeCount := 1 }, "T", []⟩

/-- The chain of the second definition. -/
def tornInner : Lineage :=
  .nested ⟨1, nestedRow (some 0), "T", []⟩ tornOuter

theorem traces_tornInner : torn.Traces 1 tornInner :=
  lineage_eq_ok_iff.mp rfl

theorem listed_tornInner : tornInner.Listed torn :=
  ⟨⟨0, 0, rfl, by decide, rfl⟩, trivial⟩

end Metadata

namespace Resolver

/-- What a run on `torn` comes to, in one round. -/
def ofTorn : Resolver :=
  completeRange .torn Config.minimal.maxGenericDepth 0 2 (empty.start .torn .minimal)

theorem run_torn : empty.run .torn .minimal = ofTorn :=
  run_of_one_round (by decide +kernel) (by decide +kernel)

/-- The class of the second definition of `torn` has members, and the graph is rendered, but no
module shows the class. -/
theorem rendered_iff_torn :
    let graph := TypeGraph.build Metadata.torn .minimal
    ∃ id infos, graph.lookup (.ofDefinition 1) = some id ∧ graph.Resolved id ∧
      Metadata.torn.Traces 1 Metadata.tornInner ∧ Metadata.tornInner.Listed Metadata.torn ∧
      (∃ row, Metadata.torn.images[0]? = some row ∧
        Metadata.declares row Metadata.tornInner.outermost = true) ∧
      graph.view? = some infos ∧ ∀ image, ¬ Renders infos image id := by
  have h_run := runsTo_run Metadata.torn .minimal
  rw [TypeGraph.build, run_torn]
  rw [run_torn] at h_run
  -- the second definition has members, and the first one has none
  have h_outer : (ofTorn.toGraph .torn).lookup (.ofDefinition 0) = some ⟨0⟩ ∧
      ((ofTorn.toGraph .torn).class? ⟨0⟩).any (·.isResolved) = false := by
    decide +kernel
  have h_inner : (ofTorn.toGraph .torn).lookup (.ofDefinition 1) = some ⟨1⟩ ∧
      ((ofTorn.toGraph .torn).class? ⟨1⟩).any (·.isResolved) = true := by
    decide +kernel
  obtain ⟨c, h_c, h_members⟩ := (Option.any_eq_true _ _).mp h_inner.2
  have h_view : (ofTorn.toGraph .torn).view?.isSome = true := by decide +kernel
  obtain ⟨infos, h_infos⟩ := Option.isSome_iff_exists.mp h_view
  obtain ⟨row, h_row, h_declares⟩ : ∃ row, Metadata.torn.images[0]? = some row ∧
      Metadata.declares row Metadata.tornInner.outermost = true := ⟨_, rfl, rfl⟩
  obtain ⟨-, h_shown⟩ := rendered_iff h_run h_inner.1 ⟨c, h_c, h_members⟩
    Metadata.traces_tornInner h_row h_declares Metadata.listed_tornInner
  obtain ⟨-, h_never⟩ := h_shown _ infos h_infos
  refine ⟨⟨1⟩, infos, h_inner.1, ⟨c, h_c, h_members⟩, Metadata.traces_tornInner,
    Metadata.listed_tornInner, ⟨row, h_row, h_declares⟩, h_infos,
    h_never Metadata.tornOuter rfl fun h_resolves => ?_⟩
  obtain ⟨id, h_found, c', h_c', h_resolved⟩ := h_resolves 0 List.mem_cons_self
  cases h_outer.1.symm.trans h_found
  have h_none := h_outer.2
  rw [h_c'] at h_none
  exact Bool.noConfusion (h_none.symm.trans h_resolved)

end Resolver

end GlobalMetadata
