import GlobalMetadata.Proofs.Display
import GlobalMetadata.Proofs.Nest
import GlobalMetadata.Proofs.Reachable
import Mathlib.Logic.Relation

/-!
# Nothing leads back to itself

Types refer to types and to classes, classes to their arguments and to the class around them. The
members of generic types do lead back to their owners, but nothing else does, and here it is said
what that comes to. Everything follows from the clock of a sound arena (`Arena.Timed`): a reference
leads to what was created before.

* Ids are handed out in the order of creation, so that whatever a class refers to, in any number of
  steps, has smaller ids than the class among the ids of its own sort (`Arena.Sound.class_lt`).
* Following references comes to an end. The bounds with which displays and depths are computed are
  never reached, and a greater bound would not change anything (`Arena.Sound.displayWithin_stable`
  and its relatives).
* The chain of types around a definition that has a class comes to an end as well, because the class
  shows the chain; so it never enters a circle (`Metadata.Traces.not_circular`).
-/

namespace GlobalMetadata

open Relation

/-! ### Circles in the tables -/

namespace Metadata

variable {m : Metadata} {definition : Nat} {lineage : Lineage}

/-- A definition is directly inside another one. -/
def Within (m : Metadata) (definition outer : Nat) : Prop :=
  ∃ row, m.typeDefinition definition = .ok row ∧ m.Declares row outer

/-- The types around a definition come to one that is, in some steps, inside itself. -/
def Circular (m : Metadata) (definition : Nat) : Prop :=
  ∃ repeated, ReflTransGen m.Within definition repeated ∧ TransGen m.Within repeated repeated

theorem Within.unique {outer outer' : Nat} (h : m.Within definition outer)
    (h' : m.Within definition outer') : outer = outer' := by
  obtain ⟨row, h_row, index, descriptor, h_index, h_descriptor, h_outer⟩ := h
  obtain ⟨row', h_row', index', descriptor', h_index', h_descriptor', h_outer'⟩ := h'
  -- the same row names the same descriptor
  cases h_row.symm.trans h_row'
  cases h_index.symm.trans h_index'
  cases h_descriptor.symm.trans h_descriptor'
  cases h_outer.symm.trans h_outer'
  rfl

/-- What leads into a circle leads there through the type around it. -/
theorem Circular.exists_outer (h : m.Circular definition) :
    ∃ outer, m.Within definition outer ∧ m.Circular outer := by
  obtain ⟨repeated, h_path, h_circle⟩ := h
  rcases ReflTransGen.cases_head h_path with rfl | ⟨outer, h_within, h_rest⟩
  · -- the definition is part of the circle, and so is the one around it
    obtain ⟨outer, h_within, h_rest⟩ := TransGen.head'_iff.mp h_circle
    exact ⟨outer, h_within, definition, h_rest, h_circle⟩
  · exact ⟨outer, h_within, repeated, h_rest, h_circle⟩

/-- **Chains that end** do not come upon a circle. -/
theorem Traces.not_circular (h : m.Traces definition lineage) : ¬ m.Circular definition := by
  induction h with
  | top h_row h_alone _ =>
    intro h_circular
    obtain ⟨outer, ⟨row, h_row', index, _, h_index, -⟩, -⟩ := h_circular.exists_outer
    cases h_row.symm.trans h_row'
    cases h_alone.symm.trans h_index
  | nested h_row h_inside _ _ ih =>
    intro h_circular
    obtain ⟨outer, h_within, h_outer⟩ := h_circular.exists_outer
    exact ih (h_within.unique ⟨_, h_row, h_inside⟩ ▸ h_outer)

end Metadata

namespace Arena

variable {m : Metadata} {arena : Arena} {time : Node → Nat}

/-! ### References -/

/-- One thing refers to another. -/
def Refers (arena : Arena) (node ref : Node) : Prop :=
  ∃ refs, arena.refs? node = some refs ∧ ref ∈ refs

/-- A class is declared by another one. -/
def DeclaredBy (arena : Arena) (id outer : ClassId) : Prop :=
  ∃ c, arena.class? id = some c ∧ c.declaring = some outer

theorem DeclaredBy.refers {id outer : ClassId} (h : arena.DeclaredBy id outer) :
    arena.Refers (.class id) (.class outer) := by
  obtain ⟨c, h_c, h_outer⟩ := h
  refine ⟨c.refs, refs?_class h_c, List.mem_append_right _ ?_⟩
  rw [h_outer]
  exact List.mem_cons_self

theorem refers_argument {id : ClassId} {c : ResolvedClass} (h_c : arena.class? id = some c)
    {arg : TypeId} (h_arg : arg ∈ c.key.classArgs ++ c.key.methodArgs) :
    arena.Refers (.class id) (.type arg) :=
  ⟨c.refs, refs?_class h_c,
    List.mem_append_left _ (List.mem_map_of_mem (List.mem_append_left _ h_arg))⟩

/-- **References lead back in time**, in any number of steps. -/
theorem Timed.earlier_of_transGen (h : arena.Timed time) {node ref : Node}
    (h_refers : TransGen arena.Refers node ref) : arena.Has ref ∧ time ref < time node := by
  induction h_refers with
  | single h_last =>
    obtain ⟨refs, h_refs, h_mem⟩ := h_last
    exact h.earlier node refs h_refs _ h_mem
  | tail _ h_last ih =>
    obtain ⟨refs, h_refs, h_mem⟩ := h_last
    obtain ⟨h_has, h_lt⟩ := h.earlier _ refs h_refs _ h_mem
    exact ⟨h_has, Nat.lt_trans h_lt ih.2⟩

theorem Sound.wellFounded_refers (h : arena.Sound m) :
    WellFounded fun ref node => arena.Refers node ref := by
  obtain ⟨time, h_time⟩ := h.timed
  refine Subrelation.wf (fun h_refers => ?_) (measure time).wf
  exact (h_time.earlier_of_transGen (.single h_refers)).2

/-- **Classes come after what they refer to.** -/
theorem Sound.class_lt (h : arena.Sound m) {id other : ClassId}
    (h_refers : TransGen arena.Refers (.class id) (.class other)) : other.index < id.index := by
  obtain ⟨time, h_time⟩ := h.timed
  obtain ⟨h_has, h_lt⟩ := h_time.earlier_of_transGen h_refers
  exact h_time.class_lt (has_class_iff.mp h_has) h_lt

theorem Sound.not_declaredBy_self (h : arena.Sound m) (id : ClassId) :
    ¬ TransGen arena.DeclaredBy id id := fun h_circle =>
  Nat.lt_irrefl _ (h.class_lt (h_circle.lift Node.class fun _ _ => DeclaredBy.refers))

/-! ### Displays and depths come to an end -/

/-- The display of a class with its namespace, following at most `fuel` references. -/
def classFullDisplayWithin (arena : Arena) (fuel : Nat) (id : ClassId) : Option String :=
  match arena.class? id with
  | none => some unknownDisplay
  | some c => do
    let display ← arena.classDisplayWithin fuel id
    return if c.namespaceName = "" then display else c.namespaceName ++ "." ++ display

section Stability

variable {fuel : Nat}

/-- More references than the bound allows for are never followed from a type. -/
theorem Sound.displayWithin_stable (h : arena.Sound m) (h_fuel : arena.spellingBound ≤ fuel)
    (id : TypeId) : arena.displayWithin fuel id = some (arena.display id) := by
  by_cases h_id : arena.HasType id
  · obtain ⟨time, h_time⟩ := h.timed
    obtain ⟨t, h_t⟩ := h.exists_unfolds h_id
    have h_lt : time (.type id) < fuel :=
      Nat.lt_of_lt_of_le (Nat.lt_succ_of_lt (h_time.bounded _ (has_type_iff.mpr h_id))) h_fuel
    rw [(h.displayWithin_eq h_time fuel).1 t id h_t h_lt, h.display_eq h_t]
  · -- an id without a type is displayed at once
    have h_none : arena.type? id = none := by
      rw [hasType_iff, not_exists] at h_id
      exact Option.eq_none_iff_forall_ne_some.mpr h_id
    obtain ⟨fuel, rfl⟩ : ∃ less, fuel = less + 1 := Nat.exists_eq_succ_of_ne_zero
      (Nat.ne_of_gt (Nat.lt_of_lt_of_le (Nat.succ_pos _) h_fuel))
    rw [display, spellingBound, displayWithin, displayWithin, h_none]
    rfl

/-- Nor from a class. -/
theorem Sound.classDisplayWithin_stable (h : arena.Sound m)
    (h_fuel : arena.spellingBound ≤ fuel) (id : ClassId) :
    arena.classDisplayWithin fuel id = some (arena.classDisplay id) := by
  cases h_c : arena.class? id with
  | some c =>
    obtain ⟨time, h_time⟩ := h.timed
    obtain ⟨lineage, k, h_traces, h_shows⟩ := h.classes id c h_c
    have h_lt : time (.class id) < arena.spellingBound :=
      Nat.lt_succ_of_lt (h_time.bounded _ (has_class_iff.mpr (hasClass_iff.mpr ⟨c, h_c⟩)))
    have h_display {bound : Nat} (h_bound : time (.class id) < bound) :
        arena.classDisplayWithin bound id = some (m.display k.type) :=
      (h.displayWithin_eq h_time bound).2 lineage k id c h_traces h_c h_shows h_bound
    rw [classDisplay, h_display h_lt, h_display (Nat.lt_of_lt_of_le h_lt h_fuel)]
    rfl
  | none =>
    obtain ⟨fuel, rfl⟩ : ∃ less, fuel = less + 1 := Nat.exists_eq_succ_of_ne_zero
      (Nat.ne_of_gt (Nat.lt_of_lt_of_le (Nat.succ_pos _) h_fuel))
    rw [classDisplay, spellingBound, classDisplayWithin, classDisplayWithin, h_c]
    rfl

theorem Sound.classFullDisplayWithin_stable (h : arena.Sound m)
    (h_fuel : arena.spellingBound ≤ fuel) (id : ClassId) :
    arena.classFullDisplayWithin fuel id = some (arena.classFullDisplay id) := by
  rw [classFullDisplayWithin, classFullDisplay, h.classDisplayWithin_stable h_fuel]
  cases arena.class? id <;> rfl

/-- More types than there are, are never followed for a depth. -/
theorem Sound.depthWithin_stable (h : arena.Sound m) (h_fuel : arena.types.size < fuel)
    (id : TypeId) : arena.depthWithin fuel id = arena.depth id := by
  by_cases h_id : arena.HasType id
  · obtain ⟨t, h_t⟩ := h.exists_unfolds h_id
    rw [h.depthWithin_eq h_t (Nat.lt_trans h_id h_fuel), h.depth_eq h_t]
  · have h_none : arena.type? id = none := by
      rw [hasType_iff, not_exists] at h_id
      exact Option.eq_none_iff_forall_ne_some.mpr h_id
    obtain ⟨fuel, rfl⟩ : ∃ less, fuel = less + 1 := Nat.exists_eq_succ_of_ne_zero
      (Nat.ne_of_gt (Nat.lt_of_le_of_lt (Nat.zero_le _) h_fuel))
    rw [depth, depthWithin, depthWithin, h_none]

end Stability

end Arena

/-! ### The result -/

namespace Resolver

/-- **The graph is well-founded.** In every state that a caller can see without forging ids,

* the element or the target of a type has a smaller id than the type, and so has the class around a
  class, and every class that is met when the arguments of an instantiation are unfolded;
* references cannot be followed for ever;
* displays and depths are computed within their bounds, for every id, so that greater bounds would
  give the same;
* no class is inside itself, in any number of steps, and no definition has a class if the types
  around it lead into a circle. -/
theorem references_wellFounded {m : Metadata} {config : Config} {resolver : Resolver}
    (h : Reachable m config resolver) :
    let arena := resolver.arena
    (∀ id part, (∃ rank, arena.type? id = some (.array part rank)) ∨
      arena.type? id = some (.pointer part) ∨ arena.type? id = some (.byref part) →
        part.index < id.index) ∧
    (∀ id outer, arena.DeclaredBy id outer → outer.index < id.index) ∧
    (∀ id c, arena.class? id = some c → ∀ arg ∈ c.key.classArgs ++ c.key.methodArgs, ∀ owner,
      ReflTransGen arena.Refers (.type arg) (.class owner) → owner.index < id.index) ∧
    (WellFounded fun ref node => arena.Refers node ref) ∧
    (∀ fuel, arena.spellingBound ≤ fuel →
      (∀ id, arena.displayWithin fuel id = some (arena.display id)) ∧
      (∀ id, arena.classDisplayWithin fuel id = some (arena.classDisplay id)) ∧
      ∀ id, arena.classFullDisplayWithin fuel id = some (arena.classFullDisplay id)) ∧
    (∀ fuel, arena.types.size < fuel → ∀ id, arena.depthWithin fuel id = arena.depth id) ∧
    (∀ id, ¬ TransGen arena.DeclaredBy id id) ∧
    ∀ id c, arena.class? id = some c → ¬ m.Circular c.key.definition := by
  intro arena
  have h_sound : arena.Sound m := h.sound
  refine ⟨?_, ?_, ?_, h_sound.wellFounded_refers, fun fuel h_fuel => ⟨?_, ?_, ?_⟩,
    fun fuel => h_sound.depthWithin_stable, h_sound.not_declaredBy_self, ?_⟩
  · rintro id part (⟨rank, h_id⟩ | h_id | h_id)
    all_goals exact h_sound.part_lt h_id List.mem_cons_self
  · intro id outer h_outer
    exact h_sound.class_lt (.single h_outer.refers)
  · intro id c h_c arg h_arg owner h_path
    exact h_sound.class_lt (TransGen.head' (Arena.refers_argument h_c h_arg) h_path)
  · exact h_sound.displayWithin_stable h_fuel
  · exact h_sound.classDisplayWithin_stable h_fuel
  · exact h_sound.classFullDisplayWithin_stable h_fuel
  · intro id c h_c
    obtain ⟨lineage, k, h_traces, h_shows⟩ := h_sound.classes id c h_c
    have h_definition : c.key.definition = k.definition := h_shows.key.1
    rw [h_definition]
    exact h_traces.not_circular

/-- A resolver that was asked for a nested class, a pointer to its type, and an instantiation with
the pointer as its argument. -/
def ofNest : Resolver :=
  let nested := empty.serve (.nest 2) .minimal (.class (.ofDefinition 0))
  let pointed := (nested.serve (.nest 2) .minimal (.intern (.class ⟨1⟩))).serve (.nest 2) .minimal
    (.intern (.pointer ⟨0⟩))
  pointed.serve (.nest 2) .minimal (.class ⟨1, [⟨1⟩], []⟩)

theorem references_wellFounded_nest :
    (ofNest.arena.class? ⟨2⟩).map (·.key) = some ⟨1, [⟨1⟩], []⟩ ∧
      (∀ owner, ReflTransGen ofNest.arena.Refers (.type ⟨1⟩) (.class owner) → owner.index < 2) ∧
      (∀ fuel, ofNest.arena.spellingBound ≤ fuel →
        ofNest.arena.classFullDisplayWithin fuel ⟨2⟩ = some "T<T.T*>") ∧
      ¬ (Metadata.nest 2).Circular 1 := by
  have h_reachable : Reachable (.nest 2) .minimal ofNest := by
    unfold ofNest
    refine .serve _ (.serve _ (.serve _ (.serve _ .empty ?_) ?_) ?_) ?_
    · constructor
      all_goals exact fun id h_id => absurd h_id List.not_mem_nil
    · show 1 < _
      decide +kernel
    · show 0 < _
      decide +kernel
    · refine ⟨fun id h_id => ?_, fun id h_id => absurd h_id List.not_mem_nil⟩
      obtain rfl := List.mem_singleton.mp h_id
      show 1 < _
      decide +kernel
  obtain ⟨-, -, h_arguments, -, h_displays, -, -, h_circles⟩ := references_wellFounded h_reachable
  have h_key : (ofNest.arena.class? ⟨2⟩).map (·.key) = some ⟨1, [⟨1⟩], []⟩ := by decide +kernel
  have h_text : ofNest.arena.classFullDisplay ⟨2⟩ = "T<T.T*>" := by decide +kernel
  obtain ⟨c, h_c, h_same⟩ := Option.map_eq_some_iff.mp h_key
  refine ⟨h_key, fun owner h_path => ?_, fun fuel h_fuel => ?_, ?_⟩
  · refine h_arguments ⟨2⟩ c h_c ⟨1⟩ ?_ owner h_path
    rw [h_same]
    exact List.mem_cons_self
  · exact h_text ▸ (h_displays fuel h_fuel).2.2 ⟨2⟩
  · have h_open := h_circles ⟨2⟩ c h_c
    rwa [h_same] at h_open

end Resolver

end GlobalMetadata
