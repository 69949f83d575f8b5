import GlobalMetadata.Graph
import GlobalMetadata.Graph.View
import Mathlib.Data.Finset.Card
import Mathlib.Data.List.Forall2
import Mathlib.Logic.Relation

/-!
# What a tree shows

A tree is rendered depth first: a class, then the classes nested in it, one after the other, and a
class that was met before is passed over. So it is not obvious that nothing is missed.

`TypeGraph.Explores` says what a part of the traversal does to the classes met so far: it adds to
them, everything that it adds is shown, and whatever is nested in what it adds has been met. Parts
that follow each other compose (`TypeGraph.Explores.trans`), and entering a class adds that class
(`TypeGraph.Explores.enter`). The levels of the tree are enough, because each of them enters another
class (`TypeGraph.unmet`). `TypeGraph.RendersOnce` goes through the same parts: what one of them
renders was not met before it, so that the next ones pass it over.

Nothing else is shown, either: `Gives` follows what a traversal can result in, whatever was met
before, and every entry of a tree is nested in the one that it sits under
(`TypeGraph.follows_of_treeWithin`). So in the end a tree shows exactly the classes that its top
leads to (`TypeGraph.exists_tree_of_resolved`), and each of them once
(`TypeGraph.ids_nodup_of_tree`).

All of this is about traversals that come to an end within some bound on the references that a
native spelling follows. Which bound it is makes no difference to the classes that are shown.
-/

namespace GlobalMetadata

section Related

variable {α β : Type} {R : α → β → Prop} {as : List α} {bs : List β}

/-- In lists that agree entry by entry, an entry on the right has one on the left. -/
theorem exists_left_of_forall₂ (h : List.Forall₂ R as bs) {b : β} (h_b : b ∈ bs) :
    ∃ a ∈ as, R a b := by
  induction h with
  | nil => exact absurd h_b List.not_mem_nil
  | @cons a _ _ _ h_first _ ih =>
    rcases List.mem_cons.mp h_b with rfl | h_b
    · exact ⟨a, List.mem_cons_self, h_first⟩
    · obtain ⟨a', h_a', h_R⟩ := ih h_b
      exact ⟨a', List.mem_cons_of_mem a h_a', h_R⟩

theorem exists_right_of_forall₂ (h : List.Forall₂ R as bs) {a : α} (h_a : a ∈ as) :
    ∃ b ∈ bs, R a b :=
  exists_left_of_forall₂ h.flip h_a

/-- And an entry at an index has one at the same index. -/
theorem exists_left_of_getElem? (h : List.Forall₂ R as bs) {i : Nat} {b : β}
    (h_b : bs[i]? = some b) : ∃ a, as[i]? = some a ∧ R a b := by
  induction h generalizing i with
  | nil => cases h_b
  | @cons a _ as _ h_first _ ih =>
    cases i with
    | zero =>
      cases h_b
      exact ⟨a, rfl, h_first⟩
    | succ i => exact ih h_b

theorem exists_right_of_getElem? (h : List.Forall₂ R as bs) {i : Nat} {a : α}
    (h_a : as[i]? = some a) : ∃ b, bs[i]? = some b ∧ R a b :=
  exists_left_of_getElem? h.flip h_a

/-- What agrees with what agrees. -/
theorem forall₂_comp {γ : Type} {S : β → γ → Prop} {T : α → γ → Prop}
    (h_comp : ∀ a b c, R a b → S b c → T a c) {cs : List γ}
    (h : List.Forall₂ R as bs) (h' : List.Forall₂ S bs cs) :
    List.Forall₂ T as cs := by
  induction h generalizing cs with
  | nil =>
    cases h'
    exact .nil
  | cons h_first _ ih =>
    cases h' with
    | cons h_first' h_rest => exact .cons (h_comp _ _ _ h_first h_first') (ih h_rest)

/-- What a list comes to, entry by entry. -/
theorem forall₂_of_mapM_eq_some {f : α → Option β} (h : as.mapM f = some bs) :
    List.Forall₂ (fun a b => f a = some b) as bs := by
  induction as generalizing bs with
  | nil =>
    cases h
    exact .nil
  | cons a as ih =>
    rw [List.mapM_cons] at h
    obtain ⟨b, h_b, h⟩ := Option.bind_eq_some_iff.mp h
    obtain ⟨bs', h_bs, h⟩ := Option.bind_eq_some_iff.mp h
    cases h
    exact .cons h_b (ih h_bs)

end Related

/-! ### Rendered trees -/

/-- A class is rendered somewhere in a tree. -/
inductive TypeTree.Contains (id : ClassId) : TypeTree → Prop
  | here {info : ClassInfo} {nested : List TypeTree} (same : info.id = id) :
      Contains id ⟨info, nested⟩
  | inside {info : ClassInfo} {nested : List TypeTree} {tree : TypeTree} (among : tree ∈ nested)
      (contains : Contains id tree) : Contains id ⟨info, nested⟩

namespace TypeTree

/-- Every entry of a tree is related to the entry that it sits under. -/
inductive Follows (R : ClassId → ClassId → Prop) : TypeTree → Prop
  | node {info : ClassInfo} {nested : List TypeTree}
      (near : ∀ tree ∈ nested, R info.id tree.info.id) (deep : ∀ tree ∈ nested, Follows R tree) :
      Follows R ⟨info, nested⟩

theorem Follows.mono {R S : ClassId → ClassId → Prop} (h_imp : ∀ outer inner, R outer inner →
    S outer inner) {tree : TypeTree} (h : tree.Follows R) : tree.Follows S := by
  induction h with
  | node near _ ih => exact .node (fun tree h_tree => h_imp _ _ (near tree h_tree)) ih

/-- From the top of a tree there is a way to everything in it. -/
theorem Follows.path {R : ClassId → ClassId → Prop} {id : ClassId} {tree : TypeTree}
    (h : tree.Follows R) (h_id : tree.Contains id) : Relation.ReflTransGen R tree.info.id id := by
  induction h_id with
  | here same => exact same ▸ .refl
  | inside among _ ih =>
    cases h with
    | node near deep => exact .head (near _ among) (ih (deep _ among))

mutual

/-- The classes of a tree, as often as they are rendered, each before what is nested in it. -/
def ids : TypeTree → List ClassId
  | ⟨info, nested⟩ => info.id :: idsIn nested

/-- The classes of several trees. -/
def idsIn : List TypeTree → List ClassId
  | [] => []
  | tree :: rest => ids tree ++ idsIn rest

end

theorem idsIn_eq_flatMap (trees : List TypeTree) : idsIn trees = trees.flatMap ids := by
  induction trees with
  | nil => rfl
  | cons tree rest ih => rw [idsIn, List.flatMap_cons, ih]

theorem idsIn_append (trees trees' : List TypeTree) :
    idsIn (trees ++ trees') = idsIn trees ++ idsIn trees' := by
  simp only [idsIn_eq_flatMap, List.flatMap_append]

mutual

theorem contains_of_mem_ids {id : ClassId} : ∀ {tree : TypeTree}, id ∈ tree.ids → tree.Contains id
  | ⟨info, nested⟩, h => by
    rw [ids] at h
    rcases List.mem_cons.mp h with rfl | h_nested
    · exact .here rfl
    · obtain ⟨tree, h_tree, h_contains⟩ := exists_contains_of_mem_idsIn h_nested
      exact .inside h_tree h_contains

theorem exists_contains_of_mem_idsIn {id : ClassId} :
    ∀ {trees : List TypeTree}, id ∈ idsIn trees → ∃ tree ∈ trees, tree.Contains id
  | [], h => absurd h List.not_mem_nil
  | tree :: rest, h => by
    rw [idsIn] at h
    rcases List.mem_append.mp h with h_first | h_rest
    · exact ⟨tree, List.mem_cons_self, contains_of_mem_ids h_first⟩
    · obtain ⟨other, h_other, h_contains⟩ := exists_contains_of_mem_idsIn h_rest
      exact ⟨other, List.mem_cons_of_mem tree h_other, h_contains⟩

end

end TypeTree

/-- The classes at the top of a rendered module. -/
def ImageInfo.tops (info : ImageInfo) : List ClassId :=
  info.types.map (·.info.id)

/-- Among rendered modules, the one at an index shows a class, at any level. -/
def Renders (infos : List ImageInfo) (image : Nat) (id : ClassId) : Prop :=
  ∃ info tree, infos[image]? = some info ∧ tree ∈ info.types ∧ tree.Contains id

/-! ### Computations that may not come to an end -/

section Runs

variable {σ α β : Type} {s last : σ}

theorem run_bind_eq_some_iff {x : StateT σ Option α} {f : α → StateT σ Option β} {b : β} :
    (x >>= f).run s = some (b, last) ↔
      ∃ a s', x.run s = some (a, s') ∧ (f a).run s' = some (b, last) := by
  rw [StateT.run_bind]
  exact Option.bind_eq_some_iff.trans Prod.exists

theorem run_mapM_cons_eq_some_iff {f : α → StateT σ Option β} {a : α} {as : List α} {bs : List β} :
    ((a :: as).mapM f).run s = some (bs, last) ↔
      ∃ b s' bs', (f a).run s = some (b, s') ∧ (as.mapM f).run s' = some (bs', last) ∧
        bs = b :: bs' := by
  rw [List.mapM_cons, run_bind_eq_some_iff]
  refine exists_congr fun b => exists_congr fun s' => ?_
  rw [run_bind_eq_some_iff]
  constructor
  · rintro ⟨h_b, bs', s'', h_bs, h_pure⟩
    cases h_pure
    exact ⟨bs', h_b, h_bs, rfl⟩
  · rintro ⟨bs', h_b, h_bs, rfl⟩
    exact ⟨h_b, bs', last, h_bs, rfl⟩

end Runs

/-- Whatever the state before, if there is a result, it satisfies `P`. -/
def Gives {σ α : Type} (x : StateT σ Option α) (P : α → Prop) : Prop :=
  ∀ s a s', x.run s = some (a, s') → P a

namespace Gives

variable {σ α β : Type} {P : α → Prop} {Q : β → Prop}

theorem pure {a : α} (h : P a) : Gives (Pure.pure a : StateT σ Option α) P := by
  intro s a' s' h_run
  cases h_run
  exact h

theorem bind {x : StateT σ Option α} {f : α → StateT σ Option β} (h : Gives x P)
    (h_f : ∀ a, P a → Gives (f a) Q) : Gives (x >>= f) Q := by
  intro s b s' h_run
  obtain ⟨a, s'', h_a, h_b⟩ := run_bind_eq_some_iff.mp h_run
  exact h_f a (h _ _ _ h_a) _ _ _ h_b

/-- Every result is related to what it is computed from. -/
theorem mapM {f : α → StateT σ Option β} {R : α → β → Prop} (h_f : ∀ a, Gives (f a) (R a))
    (as : List α) : Gives (as.mapM f) fun bs => List.Forall₂ R as bs := by
  induction as with
  | nil => exact .pure .nil
  | cons a as ih =>
    rw [List.mapM_cons]
    exact (h_f a).bind fun _ h_b => ih.bind fun _ h_bs => .pure (.cons h_b h_bs)

end Gives

/-! ### Leading inwards -/

namespace TypeGraph

/-- A class with members. -/
def Resolved (graph : TypeGraph) (id : ClassId) : Prop :=
  ∃ c, graph.class? id = some c ∧ c.isResolved = true

/-- A class with members is listed among the nested classes of another one. -/
def Nests (graph : TypeGraph) (outer inner : ClassId) : Prop :=
  (∃ c, graph.class? outer = some c ∧ inner ∈ c.nested) ∧ graph.Resolved inner

/-- A class leads inwards to another one, through any number of classes. -/
abbrev LeadsTo (graph : TypeGraph) : ClassId → ClassId → Prop :=
  Relation.ReflTransGen graph.Nests

variable {graph : TypeGraph}

theorem resolved_of_leadsTo {top id : ClassId} (h : graph.Resolved top)
    (h_leads : graph.LeadsTo top id) : graph.Resolved id := by
  cases h_leads with
  | refl => exact h
  | tail _ h_nests => exact h_nests.2

/-! ### Parts of a traversal -/

/-- The classes that are there and were not met. -/
def unmet (graph : TypeGraph) (met : List ClassId) : Finset Nat :=
  (Finset.range graph.arena.classes.size).filter fun i => (⟨i⟩ : ClassId) ∉ met

/-- What a part of the traversal does to the classes that were met. -/
structure Explores (graph : TypeGraph) (before after : List ClassId) (shown : ClassId → Prop) :
    Prop where
  /-- What was met stays met. -/
  grows : ∀ id ∈ before, id ∈ after
  /-- What is new is shown. -/
  shows : ∀ id ∈ after, id ∈ before ∨ shown id
  /-- What is nested in something new was met. -/
  closed : ∀ id ∈ after, id ∈ before ∨ ∀ inner, graph.Nests id inner → inner ∈ after

namespace Explores

variable {before between after met : List ClassId} {shown shown' : ClassId → Prop}

/-- Nothing happens. -/
theorem refl (met : List ClassId) (shown : ClassId → Prop) : graph.Explores met met shown where
  grows _ h := h
  shows _ h := .inl h
  closed _ h := .inl h

/-- One part after the other. -/
theorem trans (h : graph.Explores before between shown)
    (h' : graph.Explores between after shown') :
    graph.Explores before after fun id => shown id ∨ shown' id where
  grows id h_id := h'.grows id (h.grows id h_id)
  shows id h_id := by
    rcases h'.shows id h_id with h_between | h_shown
    · exact (h.shows id h_between).imp_right .inl
    · exact .inr (.inr h_shown)
  closed id h_id := by
    rcases h'.closed id h_id with h_between | h_closed
    · -- what was met between is met after
      refine (h.closed id h_between).imp_right fun h_closed inner h_inner => ?_
      exact h'.grows inner (h_closed inner h_inner)
    · exact .inr h_closed

theorem mono (h : graph.Explores before after shown) (h_imp : ∀ id, shown id → shown' id) :
    graph.Explores before after shown' :=
  { h with shows := fun id h_id => (h.shows id h_id).imp_right (h_imp id) }

/-- A class is entered, and what is nested in it is met. -/
theorem enter {id : ClassId} (h : graph.Explores (id :: met) after shown)
    (h_nested : ∀ inner, graph.Nests id inner → inner ∈ after) :
    graph.Explores met after fun other => other = id ∨ shown other where
  grows other h_other := h.grows other (List.mem_cons_of_mem id h_other)
  shows other h_other := by
    rcases h.shows other h_other with h_met | h_shown
    · rcases List.mem_cons.mp h_met with rfl | h_met
      · exact .inr (.inl rfl)
      · exact .inl h_met
    · exact .inr (.inr h_shown)
  closed other h_other := by
    rcases h.closed other h_other with h_met | h_closed
    · rcases List.mem_cons.mp h_met with rfl | h_met
      · exact .inr h_nested
      · exact .inl h_met
    · exact .inr h_closed

/-- From a start that was met, everything is met that it leads to. -/
theorem mem_of_leadsTo (h : graph.Explores [] after shown) {top id : ClassId} (h_top : top ∈ after)
    (h_leads : graph.LeadsTo top id) : id ∈ after := by
  induction h_leads with
  | refl => exact h_top
  | tail _ h_nests ih =>
    rcases h.closed _ ih with h_nil | h_closed
    · exact absurd h_nil List.not_mem_nil
    · exact h_closed _ h_nests

end Explores

/-! ### Fuel -/

section Fuel

variable {met met' : List ClassId} {id : ClassId}

theorem unmet_subset (h : ∀ id ∈ met, id ∈ met') : graph.unmet met' ⊆ graph.unmet met := by
  intro i h_i
  obtain ⟨h_range, h_new⟩ := Finset.mem_filter.mp h_i
  exact Finset.mem_filter.mpr ⟨h_range, fun h_met => h_new (h _ h_met)⟩

theorem mem_unmet_of_resolved (h : graph.Resolved id) (h_id : id ∉ met) :
    id.index ∈ graph.unmet met := by
  obtain ⟨c, h_c, -⟩ := h
  obtain ⟨h_lt, -⟩ := Array.getElem?_eq_some_iff.mp h_c
  exact Finset.mem_filter.mpr ⟨Finset.mem_range.mpr h_lt, h_id⟩

/-- Entering a class leaves fewer to meet. -/
theorem card_unmet_cons (h : graph.Resolved id) (h_id : id ∉ met) :
    (graph.unmet (id :: met)).card < (graph.unmet met).card := by
  refine Finset.card_lt_card (Finset.ssubset_iff_subset_ne.mpr ⟨?_, fun h_eq => ?_⟩)
  · exact unmet_subset fun _ h_other => List.mem_cons_of_mem id h_other
  · have h_mem := mem_unmet_of_resolved h h_id
    rw [← h_eq] at h_mem
    exact (Finset.mem_filter.mp h_mem).2 List.mem_cons_self

end Fuel

/-! ### Running the traversal -/

/-- A class is rendered in one of the trees. -/
def Shown (trees : List (Option TypeTree)) (id : ClassId) : Prop :=
  ∃ tree, some tree ∈ trees ∧ tree.Contains id

section Running

variable {met after : List ClassId} {id : ClassId} {fuel levels : Nat} {tree? : Option TypeTree}

theorem classInfoWithin_id {c : ResolvedClass} {info : ClassInfo}
    (h : graph.classInfoWithin fuel id c = some info) : info.id = id := by
  obtain ⟨_, -, h⟩ := Option.bind_eq_some_iff.mp h
  obtain ⟨_, -, h⟩ := Option.bind_eq_some_iff.mp h
  obtain ⟨_, -, h⟩ := Option.bind_eq_some_iff.mp h
  cases h
  rfl

/-- A class without members, or one that was met, is passed over. -/
theorem run_treeWithin_of_skip (h : graph.Resolved id → id ∈ met) :
    (graph.treeWithin fuel (levels + 1) id).run met = some (none, met) := by
  unfold treeWithin
  cases h_c : graph.class? id with
  | none => rfl
  | some c =>
    have h_skip : (!c.isResolved || met.contains id) = true := by
      cases h_resolved : c.isResolved with
      | false => rfl
      | true => exact List.contains_iff_mem.mpr (h ⟨c, h_c, h_resolved⟩)
    show StateT.run (if (!c.isResolved || met.contains id) = true then _ else _) met = _
    rw [h_skip]
    rfl

/-- Any other class is met and rendered, and what is nested in it comes next. -/
theorem run_treeWithin_of_enter {c : ResolvedClass} (h_c : graph.class? id = some c)
    (h_resolved : c.isResolved = true) (h_new : id ∉ met) :
    (graph.treeWithin fuel (levels + 1) id).run met =
      graph.classInfoWithin fuel id c >>= fun info =>
        (c.nested.mapM (graph.treeWithin fuel levels)).run (id :: met) >>= fun p =>
          some (some ⟨info, p.1.filterMap fun tree => tree⟩, p.2) := by
  have h_enter : (!c.isResolved || met.contains id) = false := by
    rw [h_resolved]
    exact Bool.eq_false_iff.mpr fun h_met => h_new (List.contains_iff_mem.mp h_met)
  unfold treeWithin
  rw [h_c]
  show StateT.run (if (!c.isResolved || met.contains id) = true then _ else _) met = _
  rw [h_enter]
  simp [Option.bind_assoc, Option.map_eq_bind]

/-- **What one level can do**: pass the class over, or enter it. -/
theorem run_treeWithin_cases
    (h_run : (graph.treeWithin fuel (levels + 1) id).run met = some (tree?, after)) :
    (graph.Resolved id → id ∈ met) ∧ tree? = none ∧ after = met ∨
    ∃ c info nested, graph.class? id = some c ∧ c.isResolved = true ∧ id ∉ met ∧
      graph.classInfoWithin fuel id c = some info ∧
      (c.nested.mapM (graph.treeWithin fuel levels)).run (id :: met) = some (nested, after) ∧
        tree? = some ⟨info, nested.filterMap fun tree => tree⟩ := by
  by_cases h_enter : graph.Resolved id ∧ id ∉ met
  · obtain ⟨⟨c, h_c, h_members⟩, h_new⟩ := h_enter
    rw [run_treeWithin_of_enter h_c h_members h_new] at h_run
    obtain ⟨info, h_info, h_run⟩ := Option.bind_eq_some_iff.mp h_run
    obtain ⟨⟨nested, last⟩, h_nested, h_run⟩ := Option.bind_eq_some_iff.mp h_run
    cases h_run
    exact .inr ⟨c, info, nested, h_c, h_members, h_new, h_info, h_nested, rfl⟩
  · have h_skip : graph.Resolved id → id ∈ met := fun h_resolved =>
      Classical.byContradiction fun h_new => h_enter ⟨h_resolved, h_new⟩
    rw [run_treeWithin_of_skip h_skip] at h_run
    cases h_run
    exact .inl ⟨h_skip, rfl, rfl⟩

/-- A list of classes, one after the other, if each of them is known to explore. -/
theorem explores_mapM {ids : List ClassId}
    (h_each : ∀ id met tree? after, (graph.unmet met).card ≤ levels →
      (graph.treeWithin fuel levels id).run met = some (tree?, after) →
        graph.Explores met after (Shown [tree?]) ∧ (graph.Resolved id → id ∈ after))
    (h_levels : (graph.unmet met).card ≤ levels) {trees : List (Option TypeTree)}
    (h_run : (ids.mapM (graph.treeWithin fuel levels)).run met = some (trees, after)) :
    graph.Explores met after (Shown trees) ∧ ∀ id ∈ ids, graph.Resolved id → id ∈ after := by
  induction ids generalizing met trees with
  | nil =>
    cases h_run
    exact ⟨.refl _ _, fun _ h_id => absurd h_id List.not_mem_nil⟩
  | cons id ids ih =>
    -- first the class in front, then the others
    obtain ⟨tree?, between, rest, h_first, h_rest, rfl⟩ := run_mapM_cons_eq_some_iff.mp h_run
    obtain ⟨h_explores, h_met⟩ := h_each id met tree? between h_levels h_first
    have h_left : (graph.unmet between).card ≤ (graph.unmet met).card :=
      Finset.card_le_card (unmet_subset h_explores.grows)
    obtain ⟨h_explores', h_met'⟩ := ih (Nat.le_trans h_left h_levels) h_rest
    refine ⟨(h_explores.trans h_explores').mono fun other h_shown => ?_, ?_⟩
    · rcases h_shown with ⟨tree, h_tree, h_contains⟩ | ⟨tree, h_tree, h_contains⟩
      · obtain rfl := List.mem_singleton.mp h_tree
        exact ⟨tree, List.mem_cons_self, h_contains⟩
      · exact ⟨tree, List.mem_cons_of_mem _ h_tree, h_contains⟩
    · refine List.forall_mem_cons.mpr ⟨fun h_resolved => ?_, h_met'⟩
      exact h_explores'.grows id (h_met h_resolved)

/-- **Completeness, one class at a time.** With as many levels as classes are left to meet, a class
with members is met, and whatever is new is shown. By induction on the levels. -/
theorem explores_treeWithin (h_levels : (graph.unmet met).card ≤ levels)
    (h_run : (graph.treeWithin fuel levels id).run met = some (tree?, after)) :
    graph.Explores met after (Shown [tree?]) ∧ (graph.Resolved id → id ∈ after) := by
  induction levels generalizing id met tree? after with
  | zero =>
    cases h_run
    refine ⟨.refl _ _, fun h_resolved => ?_⟩
    -- all classes were met
    by_contra h_new
    have h_mem := mem_unmet_of_resolved h_resolved h_new
    rw [Finset.card_eq_zero.mp (Nat.le_zero.mp h_levels)] at h_mem
    exact absurd h_mem (Finset.notMem_empty _)
  | succ levels ih =>
    rcases run_treeWithin_cases h_run with
      ⟨h_skip, rfl, rfl⟩ | ⟨c, info, nested, h_c, h_members, h_new, h_info, h_nested, rfl⟩
    · exact ⟨.refl _ _, h_skip⟩
    · have h_left := card_unmet_cons ⟨c, h_c, h_members⟩ h_new
      obtain ⟨h_explores, h_met⟩ := explores_mapM (fun _ _ _ _ h_levels h_run => ih h_levels h_run)
        (Nat.le_of_lt_succ (Nat.lt_of_lt_of_le h_left h_levels)) h_nested
      have h_entered : graph.Explores met _ _ := h_explores.enter fun inner h_inner => by
        obtain ⟨⟨c', h_c', h_mem⟩, h_inner⟩ := h_inner
        cases h_c.symm.trans h_c'
        exact h_met inner h_mem h_inner
      refine ⟨h_entered.mono fun other h_shown => ?_, fun _ => ?_⟩
      · -- it is the class itself, or inside one of the trees
        refine ⟨_, List.mem_singleton_self _, ?_⟩
        rcases h_shown with rfl | ⟨tree, h_tree, h_contains⟩
        · exact .here (classInfoWithin_id h_info)
        · exact .inside (List.mem_filterMap.mpr ⟨some tree, h_tree, rfl⟩) h_contains
      · exact h_explores.grows id List.mem_cons_self

end Running

/-! ### What a tree contains -/

section Contents

variable {fuel : Nat} {top : ClassId} {tree : TypeTree}

/-- **Soundness.** The tree of a class starts with the class, and every other entry is nested in the
one that it sits under. By induction on the levels. -/
theorem follows_of_treeWithin (fuel levels : Nat) (top : ClassId) :
    Gives (graph.treeWithin fuel levels top) fun tree? => ∀ tree, tree? = some tree →
      tree.info.id = top ∧ graph.Resolved top ∧ tree.Follows graph.Nests := by
  induction levels generalizing top with
  | zero => exact .pure fun _ h_none => by cases h_none
  | succ levels ih =>
    intro met tree? after h_run tree h_tree
    rcases run_treeWithin_cases h_run with
      ⟨-, rfl, -⟩ | ⟨c, info, nested, h_c, h_members, -, h_info, h_nested, rfl⟩
    · cases h_tree
    · cases h_tree
      obtain rfl := classInfoWithin_id h_info
      have h_inside := Gives.mapM ih c.nested _ _ _ h_nested
      -- each tree inside was rendered for one of the nested classes
      have h_each (tree : TypeTree) (h_tree : tree ∈ nested.filterMap fun tree => tree) :
          graph.Nests info.id tree.info.id ∧ tree.Follows graph.Nests := by
        obtain ⟨_, h_mem, rfl⟩ := List.mem_filterMap.mp h_tree
        obtain ⟨inner, h_inner, h_follows⟩ := exists_left_of_forall₂ h_inside h_mem
        obtain ⟨rfl, h_resolved, h_follows⟩ := h_follows _ rfl
        exact ⟨⟨⟨c, h_c, h_inner⟩, h_resolved⟩, h_follows⟩
      exact ⟨rfl, ⟨c, h_c, h_members⟩, .node (fun tree h_tree => (h_each tree h_tree).1)
        fun tree h_tree => (h_each tree h_tree).2⟩

/-- What comes out for a class is what the traversal comes to. -/
theorem typeInfoWithin_eq_some_iff {tree? : Option TypeTree} :
    graph.typeInfoWithin fuel top = some tree? ↔ ∃ after,
      (graph.treeWithin fuel (graph.arena.classes.size + 1) top).run [] = some (tree?, after) := by
  refine Option.map_eq_some_iff.trans ⟨?_, ?_⟩
  · rintro ⟨⟨_, after⟩, h_run, rfl⟩
    exact ⟨after, h_run⟩
  · rintro ⟨after, h_run⟩
    exact ⟨(tree?, after), h_run, rfl⟩

theorem follows_of_typeInfo (h : graph.typeInfoWithin fuel top = some (some tree)) :
    tree.info.id = top ∧ graph.Resolved top ∧ tree.Follows graph.Nests := by
  obtain ⟨after, h_run⟩ := typeInfoWithin_eq_some_iff.mp h
  exact follows_of_treeWithin _ _ top _ _ _ h_run tree rfl

theorem card_unmet_le (graph : TypeGraph) (met : List ClassId) :
    (graph.unmet met).card ≤ graph.arena.classes.size := by
  have h_le := Finset.card_filter_le (Finset.range graph.arena.classes.size)
    fun i => (⟨i⟩ : ClassId) ∉ met
  rwa [Finset.card_range] at h_le

/-- **What a tree shows.** If rendering a class with members comes to an end, there is a tree, and
it contains exactly the classes that the class leads to. -/
theorem exists_tree_of_resolved {tree? : Option TypeTree} (h_top : graph.Resolved top)
    (h : graph.typeInfoWithin fuel top = some tree?) :
    ∃ tree, tree? = some tree ∧ ∀ id, tree.Contains id ↔ graph.LeadsTo top id := by
  obtain ⟨after, h_run⟩ := typeInfoWithin_eq_some_iff.mp h
  obtain ⟨h_explores, h_met⟩ := explores_treeWithin
    (Nat.le_succ_of_le (graph.card_unmet_le [])) h_run
  -- everything that was met is shown, since nothing was met before
  have h_shown {id : ClassId} (h_leads : graph.LeadsTo top id) :
      ∃ tree, tree? = some tree ∧ tree.Contains id := by
    have h_id := h_explores.mem_of_leadsTo (h_met h_top) h_leads
    obtain ⟨tree, h_tree, h_contains⟩ := (h_explores.shows id h_id).resolve_left List.not_mem_nil
    exact ⟨tree, (List.mem_singleton.mp h_tree).symm, h_contains⟩
  obtain ⟨tree, rfl, -⟩ := h_shown .refl
  obtain ⟨rfl, -, h_follows⟩ := follows_of_typeInfo h
  refine ⟨tree, rfl, fun id => ⟨h_follows.path, fun h_leads => ?_⟩⟩
  obtain ⟨_, h_same, h_contains⟩ := h_shown h_leads
  cases h_same
  exact h_contains

/-- What a rendered module shows: the trees of the classes that the module lists. -/
structure RendersImage (graph : TypeGraph) (fuel : Nat) (entry : ImageEntry) (info : ImageInfo) :
    Prop where
  name : info.name = entry.name
  types : ∃ trees, List.Forall₂ (fun top tree? => graph.typeInfoWithin fuel top = some tree?)
    entry.types trees ∧ info.types = trees.filterMap fun tree => tree

/-- If rendering a graph comes to an end, every module is rendered. -/
theorem rendersImage_of_viewWithin {infos : List ImageInfo}
    (h : graph.viewWithin fuel = some infos) :
    List.Forall₂ (graph.RendersImage fuel) graph.images infos := by
  refine (forall₂_of_mapM_eq_some h).imp fun entry info h_info => ?_
  obtain ⟨trees, h_trees, h_info⟩ := Option.bind_eq_some_iff.mp h_info
  cases h_info
  exact ⟨rfl, trees, forall₂_of_mapM_eq_some h_trees, rfl⟩

theorem RendersImage.mem_types_iff {entry : ImageEntry} {info : ImageInfo}
    (h : graph.RendersImage fuel entry info) : tree ∈ info.types ↔
      ∃ top ∈ entry.types, graph.typeInfoWithin fuel top = some (some tree) := by
  obtain ⟨trees, h_trees, h_types⟩ := h.types
  rw [h_types, List.mem_filterMap]
  constructor
  · rintro ⟨_, h_mem, rfl⟩
    exact exists_left_of_forall₂ h_trees h_mem
  · rintro ⟨top, h_top, h_tree⟩
    obtain ⟨_, h_mem, h_same⟩ := exists_right_of_forall₂ h_trees h_top
    exact ⟨some tree, Option.some.inj (h_same.symm.trans h_tree) ▸ h_mem, rfl⟩

/-- Classes with members have trees, one each, which start with them. -/
theorem map_top_eq {tops : List ClassId} {trees : List (Option TypeTree)}
    (h_tops : ∀ top ∈ tops, graph.Resolved top)
    (h : List.Forall₂ (fun top tree? => graph.typeInfoWithin fuel top = some tree?) tops trees) :
    (trees.filterMap fun tree => tree).map (·.info.id) = tops := by
  induction h with
  | nil => rfl
  | cons h_tree _ ih =>
    obtain ⟨h_first, h_rest⟩ := List.forall_mem_cons.mp h_tops
    obtain ⟨tree, rfl, -⟩ := exists_tree_of_resolved h_first h_tree
    obtain ⟨rfl, -, -⟩ := follows_of_typeInfo h_tree
    exact congrArg (tree.info.id :: ·) (ih h_rest)

theorem RendersImage.tops_eq {entry : ImageEntry} {info : ImageInfo}
    (h : graph.RendersImage fuel entry info)
    (h_tops : ∀ top ∈ entry.types, graph.Resolved top) : info.tops = entry.types := by
  obtain ⟨trees, h_trees, h_types⟩ := h.types
  rw [ImageInfo.tops, h_types]
  exact map_top_eq h_tops h_trees

/-- **What is at the top.** If rendering a graph comes to an end, and modules list only classes with
members, then the view has at the top of each module what the module lists. -/
theorem map_listing_eq (h_tops : ∀ entry ∈ graph.images, ∀ top ∈ entry.types, graph.Resolved top)
    {infos : List ImageInfo} (h : graph.viewWithin fuel = some infos) :
    (infos.map fun info => (info.name, info.tops)) =
      graph.images.map fun entry => (entry.name, entry.types) := by
  rw [eq_comm, ← List.forall₂_eq_eq_eq, List.forall₂_map_left_iff, List.forall₂_map_right_iff]
  -- every entry of the list of modules is one with resolved classes, and is rendered
  refine ((List.forall₂_and_left _ _).mpr ⟨h_tops, rendersImage_of_viewWithin h⟩).imp ?_
  rintro entry info ⟨h_entry, h_renders⟩
  rw [h_renders.tops_eq h_entry, h_renders.name]

/-- A module lists a class with members that leads to a class. -/
def Exposes (graph : TypeGraph) (image : Nat) (id : ClassId) : Prop :=
  ∃ entry top, graph.images[image]? = some entry ∧ top ∈ entry.types ∧ graph.Resolved top ∧
    graph.LeadsTo top id

/-- **What a view shows.** If rendering a graph comes to an end, a module shows exactly the classes
that it exposes. -/
theorem renders_iff_exposes {infos : List ImageInfo} (h : graph.viewWithin fuel = some infos)
    {image : Nat} {id : ClassId} : Renders infos image id ↔ graph.Exposes image id := by
  have h_images := rendersImage_of_viewWithin h
  constructor
  · rintro ⟨info, tree, h_info, h_tree, h_contains⟩
    obtain ⟨entry, h_entry, h_renders⟩ := exists_left_of_getElem? h_images h_info
    obtain ⟨top, h_top, h_tree⟩ := h_renders.mem_types_iff.mp h_tree
    obtain ⟨rfl, h_resolved, h_follows⟩ := follows_of_typeInfo h_tree
    exact ⟨entry, _, h_entry, h_top, h_resolved, h_follows.path h_contains⟩
  · rintro ⟨entry, top, h_entry, h_top, h_resolved, h_leads⟩
    obtain ⟨info, h_info, h_renders⟩ := exists_right_of_getElem? h_images h_entry
    obtain ⟨trees, h_trees, -⟩ := h_renders.types
    obtain ⟨tree?, -, h_tree?⟩ := exists_right_of_forall₂ h_trees h_top
    obtain ⟨tree, rfl, h_contains⟩ := exists_tree_of_resolved h_resolved h_tree?
    exact ⟨info, tree, h_info, h_renders.mem_types_iff.mpr ⟨top, h_top, h_tree?⟩,
      (h_contains id).mpr h_leads⟩

end Contents

/-! ### Rendered once -/

/-- What a part of the traversal renders was not met before, and is met when the part is over. -/
structure RendersOnce (before after ids : List ClassId) : Prop where
  nodup : ids.Nodup
  fresh : ∀ id ∈ ids, id ∉ before
  meets : ∀ id ∈ ids, id ∈ after
  /-- What was met stays met. -/
  grows : ∀ id ∈ before, id ∈ after

namespace RendersOnce

variable {before between after met ids ids' : List ClassId}

/-- Nothing happens. -/
theorem refl (met : List ClassId) : RendersOnce met met [] where
  nodup := List.nodup_nil
  fresh _ h := absurd h List.not_mem_nil
  meets _ h := absurd h List.not_mem_nil
  grows _ h := h

/-- One part after the other. -/
theorem trans (h : RendersOnce before between ids) (h' : RendersOnce between after ids') :
    RendersOnce before after (ids ++ ids') where
  nodup := by
    -- the second part passes over what the first one has met
    refine List.nodup_append.mpr ⟨h.nodup, h'.nodup, fun id h_id id' h_id' h_same => ?_⟩
    exact h'.fresh id' h_id' (h_same ▸ h.meets id h_id)
  fresh id h_id := by
    rcases List.mem_append.mp h_id with h_first | h_second
    · exact h.fresh id h_first
    · exact fun h_met => h'.fresh id h_second (h.grows id h_met)
  meets id h_id := by
    rcases List.mem_append.mp h_id with h_first | h_second
    · exact h'.grows id (h.meets id h_first)
    · exact h'.meets id h_second
  grows id h_id := h'.grows id (h.grows id h_id)

/-- A class is entered. -/
theorem enter {id : ClassId} (h_new : id ∉ met) (h : RendersOnce (id :: met) after ids) :
    RendersOnce met after (id :: ids) where
  nodup := List.nodup_cons.mpr ⟨fun h_id => h.fresh id h_id List.mem_cons_self, h.nodup⟩
  fresh other h_other := by
    rcases List.mem_cons.mp h_other with rfl | h_other
    · exact h_new
    · exact fun h_met => h.fresh other h_other (List.mem_cons_of_mem id h_met)
  meets other h_other := by
    rcases List.mem_cons.mp h_other with rfl | h_other
    · exact h.grows other List.mem_cons_self
    · exact h.meets other h_other
  grows other h_other := h.grows other (List.mem_cons_of_mem id h_other)

end RendersOnce

section Once

variable {fuel levels : Nat} {met after : List ClassId}

/-- A list of classes, one after the other, if each of them is known to be rendered once. -/
theorem rendersOnce_mapM {ids : List ClassId}
    (h_each : ∀ id met tree? after,
      (graph.treeWithin fuel levels id).run met = some (tree?, after) →
        RendersOnce met after (TypeTree.idsIn tree?.toList))
    {trees : List (Option TypeTree)}
    (h_run : (ids.mapM (graph.treeWithin fuel levels)).run met = some (trees, after)) :
    RendersOnce met after (TypeTree.idsIn (trees.filterMap fun tree => tree)) := by
  induction ids generalizing met trees with
  | nil =>
    cases h_run
    exact .refl _
  | cons id ids ih =>
    obtain ⟨tree?, between, rest, h_first, h_rest, rfl⟩ := run_mapM_cons_eq_some_iff.mp h_run
    have h_once := (h_each id met tree? between h_first).trans (ih h_rest)
    rw [← TypeTree.idsIn_append] at h_once
    cases tree? with
    | none => exact h_once
    | some tree => exact h_once

/-- **No repetition, one class at a time.** By induction on the levels. -/
theorem rendersOnce_treeWithin {id : ClassId} {tree? : Option TypeTree}
    (h_run : (graph.treeWithin fuel levels id).run met = some (tree?, after)) :
    RendersOnce met after (TypeTree.idsIn tree?.toList) := by
  induction levels generalizing id met tree? after with
  | zero =>
    cases h_run
    exact .refl met
  | succ levels ih =>
    rcases run_treeWithin_cases h_run with
      ⟨-, rfl, rfl⟩ | ⟨c, info, nested, -, -, h_new, h_info, h_nested, rfl⟩
    · exact .refl _
    · obtain rfl := classInfoWithin_id h_info
      have h_once := (rendersOnce_mapM (fun _ _ _ _ h_run => ih h_run) h_nested).enter h_new
      rwa [Option.toList_some, TypeTree.idsIn, TypeTree.idsIn, List.append_nil, TypeTree.ids]

/-- **Once.** A tree renders no class twice. -/
theorem ids_nodup_of_tree {top : ClassId} {tree : TypeTree}
    (h : graph.typeInfoWithin fuel top = some (some tree)) : tree.ids.Nodup := by
  obtain ⟨after, h_run⟩ := typeInfoWithin_eq_some_iff.mp h
  have h_once := (rendersOnce_treeWithin h_run).nodup
  rwa [Option.toList_some, TypeTree.idsIn, TypeTree.idsIn, List.append_nil] at h_once

end Once

end TypeGraph

end GlobalMetadata
