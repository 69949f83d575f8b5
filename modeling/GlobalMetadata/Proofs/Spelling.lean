import GlobalMetadata.Proofs.OrderIndependence
import GlobalMetadata.Proofs.Storage

/-!
# When a graph can be spelled

Rendering a class asks for its native spelling and for those of all types in its fields and methods.
With a bound on the references that a native spelling follows, nothing comes out when the bound is
not enough (`TypeGraph.classInfoWithin`, `TypeGraph.typeInfoWithin`, `TypeGraph.viewWithin`). A
computation of this sort is settled by a condition (`Settles`): if it holds, the bound of the arena
is enough, and otherwise none is. For a single spelling the condition is that it leads into no
circle, and for a rendering that this is so for everything that it spells.

What a bound is enough for, every larger one is enough for as well, with the same result
(`TypeGraph.treeWithin_mono`). And the traversal does not depend on the spellings, so that a
rendering comes out exactly if the bound is enough for all that is spelled for the classes that are
shown (`TypeGraph.isSome_typeInfoWithin_iff`, `TypeGraph.isSome_viewWithin_iff`).
-/

namespace GlobalMetadata

open Relation

/-- What is computed by following at most so many references: under the condition there is a value,
and the bound is enough for it; otherwise there is none, and no number is enough for any. -/
structure Settles {α : Type} (condition : Prop) (bound : Nat) (compute : Nat → Option α)
    (value : Option α) : Prop where
  enough : condition → ∃ a, value = some a ∧ ∀ fuel, bound ≤ fuel → compute fuel = some a
  never : ¬ condition → value = none ∧ ∀ fuel, compute fuel = none

/-- A computation is settled if it keeps its result with a larger bound, comes to one only under the
condition, and then with the bound at hand. -/
theorem settles_of_mono {α : Type} {condition : Prop} {bound : Nat} {compute : Nat → Option α}
    (h_mono : ∀ fuel fuel' a, fuel ≤ fuel' → compute fuel = some a → compute fuel' = some a)
    (h_only : ∀ fuel, (compute fuel).isSome = true → condition)
    (h_enough : condition → (compute bound).isSome = true) :
    Settles condition bound compute (compute bound) where
  enough h := by
    obtain ⟨a, h_a⟩ := Option.isSome_iff_exists.mp (h_enough h)
    exact ⟨a, h_a, fun fuel h_fuel => h_mono _ _ a h_fuel h_a⟩
  never h := by
    have h_none (fuel : Nat) : compute fuel = none :=
      Option.not_isSome_iff_eq_none.mp fun h_some => h (h_only fuel h_some)
    exact ⟨h_none bound, h_none⟩

section Lists

variable {σ α β : Type} {as : List α}

theorem isSome_mapM_iff {f : α → Option β} :
    (as.mapM f).isSome = true ↔ ∀ a ∈ as, (f a).isSome = true := by
  induction as with
  | nil => exact iff_of_true rfl fun _ h => absurd h List.not_mem_nil
  | cons a as ih =>
    have h_both : ((a :: as).mapM f).isSome = ((f a).isSome && (as.mapM f).isSome) := by
      rw [List.mapM_cons]
      cases f a <;> cases as.mapM f <;> rfl
    rw [h_both, Bool.and_eq_true, ih, List.forall_mem_cons]

/-- What comes out entry by entry still does if every entry does. -/
theorem mapM_mono {f g : α → Option β} (h : ∀ a ∈ as, ∀ b, f a = some b → g a = some b)
    {bs : List β} (h_bs : as.mapM f = some bs) : as.mapM g = some bs := by
  induction as generalizing bs with
  | nil => exact h_bs
  | cons a as ih =>
    rw [List.mapM_cons] at h_bs ⊢
    obtain ⟨b, h_b, h_bs⟩ := Option.bind_eq_some_iff.mp h_bs
    obtain ⟨rest, h_rest, h_bs⟩ := Option.bind_eq_some_iff.mp h_bs
    rw [h a List.mem_cons_self b h_b, ih (fun c h_c => h c (List.mem_cons_of_mem a h_c)) h_rest]
    exact h_bs

/-- The same, where a state is handed on. -/
theorem run_mapM_mono {f g : α → StateT σ Option β}
    (h : ∀ a s r, (f a).run s = some r → (g a).run s = some r) {s : σ} {r : List β × σ}
    (h_r : (as.mapM f).run s = some r) : (as.mapM g).run s = some r := by
  induction as generalizing s r with
  | nil => exact h_r
  | cons a as ih =>
    obtain ⟨bs, last⟩ := r
    obtain ⟨b, s', bs', h_b, h_bs, rfl⟩ := run_mapM_cons_eq_some_iff.mp h_r
    exact run_mapM_cons_eq_some_iff.mpr ⟨b, s', bs', h a s _ h_b, ih h_bs, rfl⟩

/-- A list comes to an end if every entry does, whatever the state. -/
theorem exists_run_mapM {f : α → StateT σ Option β} (h : ∀ a ∈ as, ∀ s, ∃ r, (f a).run s = some r)
    (s : σ) : ∃ r, (as.mapM f).run s = some r := by
  induction as generalizing s with
  | nil => exact ⟨_, rfl⟩
  | cons a as ih =>
    obtain ⟨⟨b, s'⟩, h_b⟩ := h a List.mem_cons_self s
    obtain ⟨⟨bs, last⟩, h_bs⟩ := ih (fun c h_c => h c (List.mem_cons_of_mem a h_c)) s'
    exact ⟨_, run_mapM_cons_eq_some_iff.mpr ⟨b, s', bs, h_b, h_bs, rfl⟩⟩

end Lists

/-! ### Spellings -/

namespace Arena

variable {arena : Arena}

theorem settles_spelling (node : Node) :
    Settles (¬ arena.Circular node) arena.spellingBound (arena.spellingWithin · node)
      (arena.spellingWithin arena.spellingBound node) := by
  refine settles_of_mono (fun _ _ _ h_le => spellingWithin_mono h_le)
    (fun fuel h_some h_circular => ?_) fun h => Option.isSome_iff_exists.mpr (exists_spelling h)
  rw [h_circular.spellingWithin_eq_none] at h_some
  cases h_some

end Arena

/-- Everything that is spelled when a class is rendered. -/
def ResolvedClass.spelled (id : ClassId) (c : ResolvedClass) : List Node :=
  .class id :: ((c.fields.map fun field => .type field.type) ++
    c.methods.flatMap fun method =>
      .type method.returnType :: method.parameters.map fun parameter => .type parameter.type)

theorem ResolvedClass.forall_mem_spelled {id : ClassId} {c : ResolvedClass} {P : Node → Prop} :
    (∀ node ∈ c.spelled id, P node) ↔ P (.class id) ∧ (∀ field ∈ c.fields, P (.type field.type)) ∧
      ∀ method ∈ c.methods, P (.type method.returnType) ∧
        ∀ parameter ∈ method.parameters, P (.type parameter.type) := by
  rw [spelled, List.forall_mem_cons, List.forall_mem_append, List.forall_mem_map]
  simp only [List.forall_mem_flatMap, List.forall_mem_cons, List.forall_mem_map]

namespace TypeGraph

variable {graph : TypeGraph} {fuel fuel' : Nat}

/-- A bound is enough for everything that is spelled when a class is rendered. -/
def SpelledWithin (graph : TypeGraph) (fuel : Nat) (id : ClassId) : Prop :=
  ∀ c, graph.class? id = some c → ∀ node ∈ c.spelled id,
    (graph.arena.spellingWithin fuel node).isSome = true

/-! ### Rendering a class -/

section Classes

variable {id : ClassId} {c : ResolvedClass}

theorem isSome_fieldInfoWithin (field : ResolvedField) :
    (graph.fieldInfoWithin fuel field).isSome =
      (graph.arena.spellingWithin fuel (.type field.type)).isSome := by
  rw [fieldInfoWithin, Arena.spellingWithin_type]
  cases graph.arena.nativeWithin fuel field.type <;> rfl

theorem isSome_parameterInfoWithin (parameter : ResolvedParameter) :
    (graph.parameterInfoWithin fuel parameter).isSome =
      (graph.arena.spellingWithin fuel (.type parameter.type)).isSome := by
  rw [parameterInfoWithin, Arena.spellingWithin_type]
  cases graph.arena.nativeWithin fuel parameter.type <;> rfl

theorem isSome_methodInfoWithin_iff (method : ResolvedMethod) :
    (graph.methodInfoWithin fuel method).isSome = true ↔
      (graph.arena.spellingWithin fuel (.type method.returnType)).isSome = true ∧
        ∀ parameter ∈ method.parameters,
          (graph.arena.spellingWithin fuel (.type parameter.type)).isSome = true := by
  have h_both : (graph.methodInfoWithin fuel method).isSome =
      ((graph.arena.spellingWithin fuel (.type method.returnType)).isSome &&
        (method.parameters.mapM (graph.parameterInfoWithin fuel)).isSome) := by
    rw [methodInfoWithin, Arena.spellingWithin_type]
    cases graph.arena.nativeWithin fuel method.returnType <;>
      cases method.parameters.mapM (graph.parameterInfoWithin fuel) <;> rfl
  rw [h_both, Bool.and_eq_true, isSome_mapM_iff]
  simp only [isSome_parameterInfoWithin]

/-- **A class is rendered within a bound** exactly if everything is spelled within it. -/
theorem isSome_classInfoWithin_iff (h_c : graph.class? id = some c) :
    (graph.classInfoWithin fuel id c).isSome = true ↔ graph.SpelledWithin fuel id := by
  have h_all : (graph.classInfoWithin fuel id c).isSome =
      ((graph.arena.spellingWithin fuel (.class id)).isSome &&
        ((c.fields.mapM (graph.fieldInfoWithin fuel)).isSome &&
          (c.methods.mapM (graph.methodInfoWithin fuel)).isSome)) := by
    rw [classInfoWithin, Arena.spellingWithin_class]
    cases graph.arena.classNativeWithin fuel id <;>
      cases c.fields.mapM (graph.fieldInfoWithin fuel) <;>
        cases c.methods.mapM (graph.methodInfoWithin fuel) <;> rfl
  have h_spelled : graph.SpelledWithin fuel id ↔
      ∀ node ∈ c.spelled id, (graph.arena.spellingWithin fuel node).isSome = true := by
    refine ⟨fun h => h c h_c, fun h c' h_c' => ?_⟩
    cases h_c.symm.trans h_c'
    exact h
  rw [h_spelled, ResolvedClass.forall_mem_spelled, h_all, Bool.and_eq_true, Bool.and_eq_true,
    isSome_mapM_iff, isSome_mapM_iff]
  simp only [isSome_fieldInfoWithin, isSome_methodInfoWithin_iff]

variable (h_le : fuel ≤ fuel')

include h_le

theorem nativeWithin_mono {type : TypeId} {name : String}
    (h : graph.arena.nativeWithin fuel type = some name) :
    graph.arena.nativeWithin fuel' type = some name := by
  rw [← Arena.spellingWithin_type] at h ⊢
  exact Arena.spellingWithin_mono h_le h

theorem fieldInfoWithin_mono {field : ResolvedField} {info : FieldInfo}
    (h : graph.fieldInfoWithin fuel field = some info) :
    graph.fieldInfoWithin fuel' field = some info := by
  obtain ⟨name, h_name, h⟩ := Option.bind_eq_some_iff.mp h
  rw [fieldInfoWithin, nativeWithin_mono h_le h_name]
  exact h

theorem parameterInfoWithin_mono {parameter : ResolvedParameter} {info : ParameterInfo}
    (h : graph.parameterInfoWithin fuel parameter = some info) :
    graph.parameterInfoWithin fuel' parameter = some info := by
  obtain ⟨name, h_name, h⟩ := Option.bind_eq_some_iff.mp h
  rw [parameterInfoWithin, nativeWithin_mono h_le h_name]
  exact h

theorem methodInfoWithin_mono {method : ResolvedMethod} {info : MethodInfo}
    (h : graph.methodInfoWithin fuel method = some info) :
    graph.methodInfoWithin fuel' method = some info := by
  obtain ⟨name, h_name, h⟩ := Option.bind_eq_some_iff.mp h
  obtain ⟨parameters, h_parameters, h⟩ := Option.bind_eq_some_iff.mp h
  rw [methodInfoWithin, nativeWithin_mono h_le h_name,
    mapM_mono (fun _ _ _ => parameterInfoWithin_mono h_le) h_parameters]
  exact h

theorem classInfoWithin_mono {info : ClassInfo} (h : graph.classInfoWithin fuel id c = some info) :
    graph.classInfoWithin fuel' id c = some info := by
  obtain ⟨name, h_name, h⟩ := Option.bind_eq_some_iff.mp h
  obtain ⟨fields, h_fields, h⟩ := Option.bind_eq_some_iff.mp h
  obtain ⟨methods, h_methods, h⟩ := Option.bind_eq_some_iff.mp h
  have h_native : graph.arena.classNativeWithin fuel' id = some name := by
    rw [← Arena.spellingWithin_class] at h_name ⊢
    exact Arena.spellingWithin_mono h_le h_name
  rw [classInfoWithin, h_native, mapM_mono (fun _ _ _ => fieldInfoWithin_mono h_le) h_fields,
    mapM_mono (fun _ _ _ => methodInfoWithin_mono h_le) h_methods]
  exact h

end Classes

/-! ### Rendering a tree -/

section Trees

variable {levels : Nat} {id top : ClassId}

/-- **A larger bound** gives the same. By induction on the levels. -/
theorem treeWithin_mono (h_le : fuel ≤ fuel') {met : List ClassId}
    {r : Option TypeTree × List ClassId} (h : (graph.treeWithin fuel levels id).run met = some r) :
    (graph.treeWithin fuel' levels id).run met = some r := by
  induction levels generalizing id met r with
  | zero => exact h
  | succ levels ih =>
    obtain ⟨tree?, after⟩ := r
    rcases run_treeWithin_cases h with ⟨h_skip, rfl, rfl⟩ |
      ⟨c, info, nested, h_c, h_members, h_new, h_info, h_nested, rfl⟩
    · exact run_treeWithin_of_skip h_skip
    · rw [run_treeWithin_of_enter h_c h_members h_new, classInfoWithin_mono h_le h_info]
      show (c.nested.mapM (graph.treeWithin fuel' levels)).run (id :: met) >>= _ = _
      rw [run_mapM_mono (fun _ _ _ h_run => ih h_run) h_nested]
      rfl

/-- **What is shown was spelled.** By induction on the levels. -/
theorem spelledWithin_of_treeWithin (fuel levels : Nat) (top : ClassId) :
    Gives (graph.treeWithin fuel levels top) fun tree? => ∀ tree, tree? = some tree →
      ∀ id, tree.Contains id → graph.SpelledWithin fuel id := by
  induction levels generalizing top with
  | zero => exact .pure fun _ h_none => by cases h_none
  | succ levels ih =>
    intro met tree? after h_run tree h_tree id h_id
    rcases run_treeWithin_cases h_run with
      ⟨-, rfl, -⟩ | ⟨c, info, nested, h_c, -, -, h_info, h_nested, rfl⟩
    · cases h_tree
    · cases h_tree
      cases h_id with
      | here same =>
        obtain rfl : top = id := (classInfoWithin_id h_info).symm.trans same
        exact (isSome_classInfoWithin_iff h_c).mp (Option.isSome_iff_exists.mpr ⟨info, h_info⟩)
      | inside among contains =>
        -- the tree around it was rendered for one of the nested classes
        have h_inside := Gives.mapM ih c.nested _ _ _ h_nested
        obtain ⟨_, h_mem, rfl⟩ := List.mem_filterMap.mp among
        obtain ⟨_, -, h_spelled⟩ := exists_left_of_forall₂ h_inside h_mem
        exact h_spelled _ rfl id contains

/-- **What can be spelled is shown.** A traversal comes to an end if the bound is enough for all the
classes that it may come to. By induction on the levels. -/
theorem exists_run_treeWithin (h : graph.Resolved id →
      ∀ other, graph.LeadsTo id other → graph.SpelledWithin fuel other) (met : List ClassId) :
    ∃ r, (graph.treeWithin fuel levels id).run met = some r := by
  induction levels generalizing id met with
  | zero => exact ⟨_, rfl⟩
  | succ levels ih =>
    by_cases h_enter : graph.Resolved id ∧ id ∉ met
    · obtain ⟨h_resolved, h_new⟩ := h_enter
      have h_spelled := h h_resolved
      obtain ⟨c, h_c, h_members⟩ := h_resolved
      obtain ⟨info, h_info⟩ := Option.isSome_iff_exists.mp
        ((isSome_classInfoWithin_iff h_c).mpr (h_spelled id .refl))
      have h_inner : ∀ inner ∈ c.nested, ∀ met,
          ∃ r, (graph.treeWithin fuel levels inner).run met = some r := by
        refine fun inner h_inner => ih fun h_inner_resolved other h_leads => ?_
        exact h_spelled other (.head ⟨⟨c, h_c, h_inner⟩, h_inner_resolved⟩ h_leads)
      obtain ⟨r, h_nested⟩ := exists_run_mapM h_inner (id :: met)
      rw [run_treeWithin_of_enter h_c h_members h_new, h_info]
      show ∃ r, (c.nested.mapM (graph.treeWithin fuel levels)).run (id :: met) >>= _ = some r
      rw [h_nested]
      exact ⟨_, rfl⟩
    · exact ⟨_, run_treeWithin_of_skip fun h_resolved =>
        Classical.byContradiction fun h_new => h_enter ⟨h_resolved, h_new⟩⟩

/-- **A tree comes out** exactly if all that its top leads to is spelled within the bound. -/
theorem isSome_typeInfoWithin_iff : (graph.typeInfoWithin fuel top).isSome = true ↔
    ∀ id, graph.Resolved top ∧ graph.LeadsTo top id → graph.SpelledWithin fuel id := by
  constructor
  · rintro h_some id ⟨h_top, h_leads⟩
    obtain ⟨tree?, h_tree?⟩ := Option.isSome_iff_exists.mp h_some
    obtain ⟨tree, rfl, h_contains⟩ := exists_tree_of_resolved h_top h_tree?
    obtain ⟨after, h_run⟩ := typeInfoWithin_eq_some_iff.mp h_tree?
    exact spelledWithin_of_treeWithin _ _ top _ _ _ h_run tree rfl id ((h_contains id).mpr h_leads)
  · intro h
    obtain ⟨⟨tree?, after⟩, h_run⟩ :
        ∃ r, (graph.treeWithin fuel (graph.arena.classes.size + 1) top).run [] = some r :=
      exists_run_treeWithin (fun h_top id h_leads => h id ⟨h_top, h_leads⟩) []
    exact Option.isSome_iff_exists.mpr ⟨tree?, typeInfoWithin_eq_some_iff.mpr ⟨after, h_run⟩⟩

theorem typeInfoWithin_mono (h_le : fuel ≤ fuel') {tree? : Option TypeTree}
    (h : graph.typeInfoWithin fuel top = some tree?) :
    graph.typeInfoWithin fuel' top = some tree? := by
  obtain ⟨after, h_run⟩ := typeInfoWithin_eq_some_iff.mp h
  exact typeInfoWithin_eq_some_iff.mpr ⟨after, treeWithin_mono h_le h_run⟩

end Trees

/-! ### Rendering a graph -/

/-- A module comes out if all of its top-level types do. -/
theorem isSome_imageInfo {image : ImageEntry} :
    (do let types ← image.types.mapM (graph.typeInfoWithin fuel)
        return ImageInfo.mk image.name (types.filterMap fun tree => tree) :
      Option ImageInfo).isSome = (image.types.mapM (graph.typeInfoWithin fuel)).isSome := by
  cases image.types.mapM (graph.typeInfoWithin fuel) <;> rfl

/-- **A view comes out** exactly if all that it shows is spelled within the bound. -/
theorem isSome_viewWithin_iff : (graph.viewWithin fuel).isSome = true ↔
    ∀ id, (∃ image, graph.Exposes image id) → graph.SpelledWithin fuel id := by
  rw [viewWithin, isSome_mapM_iff]
  simp only [isSome_imageInfo, isSome_mapM_iff, isSome_typeInfoWithin_iff]
  constructor
  · rintro h id ⟨image, entry, top, h_entry, h_top, h_resolved, h_leads⟩
    exact h entry (List.mem_of_getElem? h_entry) top h_top id ⟨h_resolved, h_leads⟩
  · rintro h entry h_entry top h_top id ⟨h_resolved, h_leads⟩
    obtain ⟨image, h_image⟩ := List.mem_iff_getElem?.mp h_entry
    exact h id ⟨image, entry, top, h_image, h_top, h_resolved, h_leads⟩

theorem viewWithin_mono (h_le : fuel ≤ fuel') {infos : List ImageInfo}
    (h : graph.viewWithin fuel = some infos) : graph.viewWithin fuel' = some infos := by
  refine mapM_mono (fun image _ info h_info => ?_) h
  obtain ⟨types, h_types, h_info⟩ := Option.bind_eq_some_iff.mp h_info
  rw [mapM_mono (fun _ _ _ => typeInfoWithin_mono h_le) h_types]
  exact h_info

/-! ### What is settled -/

/-- Nothing that the rendering of a class spells leads into a circle. -/
def Spellable (graph : TypeGraph) (id : ClassId) : Prop :=
  ∀ c, graph.class? id = some c → ∀ node ∈ c.spelled id, ¬ graph.arena.Circular node

theorem Spellable.spelledWithin {id : ClassId} (h : graph.Spellable id) :
    graph.SpelledWithin graph.arena.spellingBound id := fun c h_c node h_node =>
  Option.isSome_iff_exists.mpr (Arena.exists_spelling (h c h_c node h_node))

theorem SpelledWithin.spellable {id : ClassId} (h : graph.SpelledWithin fuel id) :
    graph.Spellable id := by
  intro c h_c node h_node h_circular
  have h_some := h c h_c node h_node
  rw [h_circular.spellingWithin_eq_none] at h_some
  cases h_some

/-- **A rendering is settled** by what it shows. -/
theorem settles_of_isSome_iff {α : Type} {compute : Nat → Option α} {shown : ClassId → Prop}
    (h_mono : ∀ fuel fuel' a, fuel ≤ fuel' → compute fuel = some a → compute fuel' = some a)
    (h_iff : ∀ fuel, (compute fuel).isSome = true ↔
      ∀ id, shown id → graph.SpelledWithin fuel id) :
    Settles (∀ id, shown id → graph.Spellable id) graph.arena.spellingBound compute
      (compute graph.arena.spellingBound) :=
  settles_of_mono h_mono (fun fuel h_some id h_id => ((h_iff fuel).mp h_some id h_id).spellable)
    fun h => (h_iff _).mpr fun id h_id => (h id h_id).spelledWithin

theorem settles_typeInfo (graph : TypeGraph) (top : ClassId) :
    Settles (∀ id, graph.Resolved top ∧ graph.LeadsTo top id → graph.Spellable id)
      graph.arena.spellingBound (graph.typeInfoWithin · top) (graph.typeInfo top) :=
  settles_of_isSome_iff (fun _ _ _ h_le => typeInfoWithin_mono h_le) fun _ =>
    isSome_typeInfoWithin_iff

theorem settles_view (graph : TypeGraph) :
    Settles (∀ id, (∃ image, graph.Exposes image id) → graph.Spellable id)
      graph.arena.spellingBound graph.viewWithin graph.view? :=
  settles_of_isSome_iff (fun _ _ _ h_le => viewWithin_mono h_le) fun _ => isSome_viewWithin_iff

end TypeGraph

/-! ### Circles in the tables -/

namespace Resolver

variable {m : Metadata} {config : Config} {final : Resolver}

section Limit

variable (h_limit : m.ChainsInLimit) (h : RunsTo m config final)

include h_limit h

/-- Within the limit, a class that is meant to have members has them. -/
theorem isResolved_of_value {id : ClassId} {c : ResolvedClass}
    (h_c : final.arena.class? id = some c) {k : KeyTerm} (h_k : final.arena.UnfoldsKey k c.key)
    {t : MembersTerm} (h_t : (m.membersMeaning config k).value = some t) :
    c.isResolved = true := by
  obtain ⟨listed, done, -, h_done, h_progress⟩ := exists_progress h_limit h
  have h_members := h_progress.arena.completed _ (h_progress.mem_done h_done ⟨c, h_c, h_k⟩) c h_c
  rw [h_t] at h_members
  rw [ResolvedClass.isResolved]
  generalize c.members = members at h_members ⊢
  cases h_members
  rfl

/-- Within the limit, there is a class for every key that a run comes to, and for no other one. -/
theorem holds_iff_reaches {k : KeyTerm} : final.arena.Holds k ↔ m.Reaches config k := by
  obtain ⟨listed, done, h_listed, h_done, h_progress⟩ := exists_progress h_limit h
  exact h_progress.holds_iff h_listed h_done

/-- Within the limit, what the tables lead to from an enumeration that is there is there, too. -/
theorem exists_way {k k' : KeyTerm} (h_way : TransGen (m.StoresAs config) k k') {id : ClassId}
    (h_k : final.arena.UnfoldsClass k id) :
    ∃ owner, TransGen final.arena.StoredLike id owner ∧ final.arena.UnfoldsClass k' owner := by
  have h_step {k k' : KeyTerm} {id : ClassId} (h_stores : m.StoresAs config k k')
      (h_k : final.arena.UnfoldsClass k id) :
      ∃ owner, final.arena.StoredLike id owner ∧ final.arena.UnfoldsClass k' owner := by
    obtain ⟨c, h_c, h_key⟩ := h_k
    refine Arena.storedLike_of_storesAs h.sound h.meant h_c ?_ h_key h_stores
    -- only an enumeration with members leads anywhere
    obtain ⟨t, _, h_t, -⟩ := h_stores
    exact isResolved_of_value h_limit h h_c h_key h_t
  induction h_way with
  | single h_stores =>
    obtain ⟨owner, h_like, h_owner⟩ := h_step h_stores h_k
    exact ⟨owner, .single h_like, h_owner⟩
  | tail _ h_stores ih =>
    obtain ⟨between, h_path, h_between⟩ := ih
    obtain ⟨owner, h_like, h_owner⟩ := h_step h_stores h_between
    exact ⟨owner, .tail h_path h_like, h_owner⟩

/-- **Within the limit**, something leads into a circle exactly if a run comes to an enumeration
that leads back to itself in the tables. -/
theorem exists_circular_iff : (∃ node, final.arena.Circular node) ↔
    ∃ k, m.Reaches config k ∧ TransGen (m.StoresAs config) k k := by
  constructor
  · rintro ⟨node, h_circular⟩
    obtain ⟨id, -, h_circle⟩ := h.sound.circular_iff.mp h_circular
    obtain ⟨k, h_k, h_stores⟩ := Arena.exists_storesAs_of_circle h.sound h.meant h_circle
    exact ⟨k, (holds_iff_reaches h_limit h).mp h_k, h_stores⟩
  · rintro ⟨k, h_k, h_stores⟩
    obtain ⟨id, h_class⟩ := (holds_iff_reaches h_limit h).mpr h_k
    obtain ⟨owner, h_way, h_owner⟩ := exists_way h_limit h h_stores h_class
    obtain rfl := h_owner.inj h_class
    exact ⟨.class owner, h.sound.circular_iff.mpr ⟨owner, .refl, h_way⟩⟩

end Limit

/-! ### The result -/

/-- **When a graph can be spelled.** For every way in which a run can come to an end,

* the native spelling of a type or a class, a rendered class with its nested types and the view are
  computed within the bound of the arena, unless something to be spelled leads into a circle; if
  something does, no number of references is enough, and there is no result. What is to be spelled
  for a class with its nested types is whatever it leads to, and for the view whatever the modules
  expose;
* what leads into a circle leads to an enumeration that leads back to itself, through underlying
  types and any number of pointers and references;
* there is no circle if no enumeration leads back to itself in the tables, and within the limit on
  chains there is one if a run comes to an enumeration that does. -/
theorem native_defined_iff (h : RunsTo m config final) :
    let graph := final.toGraph m
    let arena := graph.arena
    let bound := arena.spellingBound
    (∀ id, Settles (¬ arena.Circular (.type id)) bound (arena.nativeWithin · id)
      (arena.native id)) ∧
    (∀ id, Settles (¬ arena.Circular (.class id)) bound (arena.classNativeWithin · id)
      (arena.classNative id)) ∧
    (∀ fuel, bound ≤ fuel → ∀ id,
      arena.elementNameWithin fuel id = some (arena.elementName id)) ∧
    (∀ top, Settles (∀ id, graph.Resolved top ∧ graph.LeadsTo top id → graph.Spellable id) bound
      (graph.typeInfoWithin · top) (graph.typeInfo top)) ∧
    Settles (∀ id, (∃ image, graph.Exposes image id) → graph.Spellable id) bound graph.viewWithin
      graph.view? ∧
    (∀ node, arena.Circular node ↔ ∃ id, ReflTransGen arena.StoredAs node (.class id) ∧
      TransGen arena.StoredLike id id) ∧
    ((∀ k, ¬ TransGen (m.StoresAs config) k k) → ∀ node, ¬ arena.Circular node) ∧
    (m.ChainsInLimit → ((∃ node, arena.Circular node) ↔
      ∃ k, m.Reaches config k ∧ TransGen (m.StoresAs config) k k)) := by
  intro graph arena bound
  refine ⟨fun id => Arena.settles_spelling (.type id), fun id => Arena.settles_spelling (.class id),
    fun _ h_fuel => h.sound.elementNameWithin_stable h_fuel, graph.settles_typeInfo,
    graph.settles_view, fun _ => h.sound.circular_iff, ?_,
    fun h_limit => exists_circular_iff h_limit h⟩
  intro h_none node h_circular
  obtain ⟨id, -, h_circle⟩ := h.sound.circular_iff.mp h_circular
  obtain ⟨k, -, h_stores⟩ := Arena.exists_storesAs_of_circle h.sound h.meant h_circle
  exact h_none k h_stores

end Resolver

/-! ### Enumerations that are stored like each other -/

/-- Two enumerations in one module. The element type of each of them is the other one. -/
def Metadata.entwined : Metadata :=
  { Metadata.bare with
    strings := nestStrings
    images := #[⟨0, 0, 0, 2, none, none, none, none, none, none⟩]
    typeDefinitions := #[
      { nestedRow none with elementTypeIndex := some 1, bitfield := 3 },
      { nestedRow none with elementTypeIndex := some 0, bitfield := 3 }]
    registration :=
      { Metadata.bare.registration with
        types := #[⟨0, .valueType, 0, false, false, .definition 0⟩,
          ⟨0, .valueType, 0, false, false, .definition 1⟩] } }

namespace Resolver

/-- What a run on `entwined` comes to, in one round. -/
def ofEntwined : Resolver :=
  completeRange .entwined Config.minimal.maxGenericDepth 0 2 (empty.start .entwined .minimal)

theorem run_entwined : empty.run .entwined .minimal = ofEntwined :=
  run_of_one_round (by decide +kernel) (by decide +kernel)

/-- Each of the two enumerations is stored like the other one. -/
theorem storedLike_entwined :
    ofEntwined.arena.StoredLike ⟨0⟩ ⟨1⟩ ∧ ofEntwined.arena.StoredLike ⟨1⟩ ⟨0⟩ := by
  have h_classes : (ofEntwined.arena.class? ⟨0⟩).map (fun c => (c.isEnum, c.underlying)) =
        some (true, some ⟨0⟩) ∧
      (ofEntwined.arena.class? ⟨1⟩).map (fun c => (c.isEnum, c.underlying)) =
        some (true, some ⟨1⟩) := by
    decide +kernel
  have h_types : ofEntwined.arena.type? ⟨0⟩ = some (.class ⟨1⟩) ∧
      ofEntwined.arena.type? ⟨1⟩ = some (.class ⟨0⟩) := by
    decide +kernel
  obtain ⟨c, h_c, h_same⟩ := Option.map_eq_some_iff.mp h_classes.1
  obtain ⟨c', h_c', h_same'⟩ := Option.map_eq_some_iff.mp h_classes.2
  simp only [Prod.mk.injEq] at h_same h_same'
  exact ⟨⟨c, ⟨0⟩, h_c, h_same.1, h_same.2, .class h_types.1⟩,
    ⟨c', ⟨1⟩, h_c', h_same'.1, h_same'.2, .class h_types.2⟩⟩

/-- Both enumerations are resolved without a failure, and neither they nor the view can be
spelled. -/
theorem native_defined_iff_entwined :
    let graph := TypeGraph.build .entwined .minimal
    graph.report.failures = [] ∧ graph.Resolved ⟨0⟩ ∧ graph.Resolved ⟨1⟩ ∧
      (∀ fuel, graph.arena.classNativeWithin fuel ⟨0⟩ = none) ∧
      (∀ fuel, graph.arena.classNativeWithin fuel ⟨1⟩ = none) ∧
      graph.view? = none ∧ ∀ fuel, graph.viewWithin fuel = none := by
  have h_run := runsTo_run .entwined .minimal
  rw [TypeGraph.build, run_entwined]
  rw [run_entwined] at h_run
  obtain ⟨-, h_class, -, -, h_view, h_circular, -, -⟩ := native_defined_iff h_run
  obtain ⟨h_like, h_like'⟩ := storedLike_entwined
  -- each of them leads back to itself through the other one
  have h_zero : ofEntwined.arena.Circular (.class ⟨0⟩) :=
    (h_circular _).mpr ⟨⟨0⟩, .refl, .head h_like (.single h_like')⟩
  have h_one : ofEntwined.arena.Circular (.class ⟨1⟩) :=
    (h_circular _).mpr ⟨⟨1⟩, .refl, .head h_like' (.single h_like)⟩
  have h_listed : ((ofEntwined.toGraph .entwined).images[0]?).map (·.types) =
      some [⟨0⟩, ⟨1⟩] := by
    decide +kernel
  obtain ⟨entry, h_entry, h_types⟩ := Option.map_eq_some_iff.mp h_listed
  obtain ⟨c, _, h_c, -⟩ := h_like
  obtain ⟨c', _, h_c', -⟩ := h_like'
  have h_resolved : ∀ i < 2, (ofEntwined.arena.class? ⟨i⟩).any (·.isResolved) = true := by
    decide +kernel
  have h_members := h_resolved 0 (by decide)
  have h_members' := h_resolved 1 (by decide)
  rw [h_c] at h_members
  rw [h_c'] at h_members'
  refine ⟨by decide +kernel, ⟨c, h_c, h_members⟩, ⟨c', h_c', h_members'⟩,
    ((h_class ⟨0⟩).never (not_not.mpr h_zero)).2, ((h_class ⟨1⟩).never (not_not.mpr h_one)).2,
    h_view.never fun h_all => ?_⟩
  have h_shown : (ofEntwined.toGraph .entwined).Exposes 0 ⟨0⟩ :=
    ⟨entry, ⟨0⟩, h_entry, h_types ▸ List.mem_cons_self, ⟨c, h_c, h_members⟩, .refl⟩
  exact h_all ⟨0⟩ ⟨0, h_shown⟩ c h_c (.class ⟨0⟩) List.mem_cons_self h_zero

end Resolver

end GlobalMetadata
