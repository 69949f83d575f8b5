import GlobalMetadata.Proofs.Lineage
import Mathlib.Logic.Function.Basic
import Mathlib.Order.Basic

/-!
# Sound arenas

Resolution never makes an arbitrary arena. In the ones that it makes, nothing leads back to itself,
and a class shows what its definition and the types around it say. `Arena.Sound` is the conjunction,
and it is kept by everything that changes an arena, as long as no id is forged.

That nothing leads back to itself is told by a clock: every type and every class was created at some
time, after all that it refers to. The clock orders types and classes alike, which their ids cannot
do, although the ids of either kind follow it (`Arena.Timed.ordered`), and it never shows more than
the number of things created. So everything that follows references comes to an end, and the bounds
with which the depth, the term and the display of a type are computed are never reached:

* `Arena.Sound.exists_unfolds`: every id stands for a term;
* `Arena.Sound.term?_eq_some_iff`: and that term is computed;
* `Arena.Sound.depth_eq`: the depth that is computed is that of the term.
-/

namespace GlobalMetadata

/-! ### References -/

/-- Something that can be referred to. -/
inductive Node
  /-- A type. -/
  | type (id : TypeId)
  /-- A class. -/
  | class (id : ClassId)
  deriving DecidableEq

/-- Two of a kind, of which the first has the smaller id. -/
def Node.Precedes : Node → Node → Prop
  | .type id, .type id' => id.index < id'.index
  | .class id, .class id' => id.index < id'.index
  | _, _ => False

/-- What a type refers to. -/
def ResolvedType.refs : ResolvedType → List Node
  | .class id => [.class id]
  | .array element _ | .pointer element | .byref element => [.type element]
  | .void | .primitive _ | .parameter .. => []

/-- What a class refers to, apart from its members. -/
def ResolvedClass.refs (c : ResolvedClass) : List Node :=
  (c.key.classArgs ++ c.key.methodArgs ++ c.genericArgs).map .type ++
    c.declaring.toList.map .class

namespace Arena

/-- What something refers to, if it exists. -/
def refs? (arena : Arena) : Node → Option (List Node)
  | .type id => (arena.type? id).map (·.refs)
  | .class id => (arena.class? id).map (·.refs)

/-- Something exists. -/
def Has (arena : Arena) (node : Node) : Prop :=
  ∃ refs, arena.refs? node = some refs

/-- The number of things that exist. -/
def size (arena : Arena) : Nat :=
  arena.types.size + arena.classes.size

section References

variable {arena arena' : Arena}

theorem refs?_type {id : TypeId} {type : ResolvedType} (h : arena.type? id = some type) :
    arena.refs? (.type id) = some type.refs := by
  rw [refs?, h, Option.map_some]

theorem refs?_class {id : ClassId} {c : ResolvedClass} (h : arena.class? id = some c) :
    arena.refs? (.class id) = some c.refs := by
  rw [refs?, h, Option.map_some]

theorem has_type_iff {id : TypeId} : arena.Has (.type id) ↔ arena.HasType id := by
  constructor
  · rintro ⟨refs, h⟩
    obtain ⟨type, h_type, -⟩ := Option.map_eq_some_iff.mp h
    exact Catalog.lt_size_of_get? h_type
  · intro h
    obtain ⟨type, h_type⟩ := Catalog.exists_get? h
    exact ⟨type.refs, refs?_type h_type⟩

theorem has_class_iff {id : ClassId} : arena.Has (.class id) ↔ arena.HasClass id := by
  constructor
  · rintro ⟨refs, h⟩
    obtain ⟨c, h_c, -⟩ := Option.map_eq_some_iff.mp h
    exact Catalog.lt_size_of_get? h_c
  · intro h
    obtain ⟨c, h_c⟩ := Catalog.exists_get? h
    exact ⟨c.refs, refs?_class h_c⟩

/-- Ids are handed out without gaps. -/
theorem Has.of_precedes {node node' : Node} (h : arena.Has node') (h_lt : node.Precedes node') :
    arena.Has node := by
  cases node <;> cases node'
  case type.type id id' => exact has_type_iff.mpr (Nat.lt_trans h_lt (has_type_iff.mp h))
  case class.class id id' => exact has_class_iff.mpr (Nat.lt_trans h_lt (has_class_iff.mp h))
  all_goals exact absurd h_lt not_false

theorem hasClass_iff {id : ClassId} : arena.HasClass id ↔ ∃ c, arena.class? id = some c :=
  ⟨Catalog.exists_get?, fun ⟨_, h⟩ => Catalog.lt_size_of_get? h⟩

theorem hasType_iff {id : TypeId} : arena.HasType id ↔ ∃ type, arena.type? id = some type :=
  ⟨Catalog.exists_get?, fun ⟨_, h⟩ => Catalog.lt_size_of_get? h⟩

theorem hasParts_iff {type : ResolvedType} :
    arena.HasParts type ↔ ∀ node ∈ type.refs, arena.Has node := by
  cases type <;> simp [HasParts, ResolvedType.refs, has_type_iff, has_class_iff]

theorem HasClass.mono (h_le : arena ≤ arena') {id : ClassId} (h : arena.HasClass id) :
    arena'.HasClass id := by
  obtain ⟨c, h_c⟩ := hasClass_iff.mp h
  obtain ⟨c', h_c', -⟩ := class?_mono h_le h_c
  exact hasClass_iff.mpr ⟨c', h_c'⟩

/-- A class after an insertion was there before or is the inserted one. -/
theorem class?_insert_cases {c c' : ResolvedClass} {id : ClassId}
    (h : (arena.insert c).2.class? id = some c') :
    arena.class? id = some c' ∨ ¬ arena.HasClass id ∧ c' = c := by
  cases h_found : arena.find? c.key with
  | some old =>
    rw [insert_of_find? h_found] at h
    exact .inl h
  | none =>
    rw [class?_insert_of_new h_found] at h
    split at h
    next h_last =>
      cases h
      exact .inr ⟨fun h_has => absurd h_last (Nat.ne_of_lt h_has), rfl⟩
    next => exact .inl h

end References

/-! ### The clock -/

/-- `time` tells when everything was created. -/
structure Timed (arena : Arena) (time : Node → Nat) : Prop where
  /-- The clock shows at most how much there is. -/
  bounded : ∀ node, arena.Has node → time node < arena.size
  /-- What something refers to exists and was created before. -/
  earlier : ∀ node refs, arena.refs? node = some refs →
    ∀ ref ∈ refs, arena.Has ref ∧ time ref < time node
  /-- Types are numbered in the order in which they were created, and so are classes. -/
  ordered : ∀ node node', arena.Has node' → node.Precedes node' → time node < time node'

theorem not_has_empty (node : Node) : ¬ empty.Has node := by
  rintro ⟨refs, h_refs⟩
  cases node <;> cases h_refs

theorem timed_empty : empty.Timed fun _ => 0 where
  bounded node h := absurd h (not_has_empty node)
  earlier node refs h := absurd ⟨refs, h⟩ (not_has_empty node)
  ordered _ node' h := absurd h (not_has_empty node')

/-- **The clock goes on.** Something new that refers only to what exists is created last. -/
theorem Timed.push {arena arena' : Arena} {time : Node → Nat} (h : arena.Timed time)
    (new : Node) {refs : List Node} (h_new : arena'.refs? new = some refs)
    (h_old : ∀ node, node ≠ new → arena'.refs? node = arena.refs? node)
    (h_refs : ∀ ref ∈ refs, arena.Has ref) (h_absent : ¬ arena.Has new)
    (h_size : arena'.size = arena.size + 1) (h_last : ∀ node, node.Precedes new → arena.Has node) :
    arena'.Timed (Function.update time new arena.size) := by
  have h_ne {node : Node} (h_node : arena.Has node) : node ≠ new :=
    fun h_same => h_absent (h_same ▸ h_node)
  have h_keeps {node : Node} (h_node : arena.Has node) : arena'.Has node := by
    obtain ⟨refs, h_refs⟩ := h_node
    exact ⟨refs, (h_old node (h_ne ⟨refs, h_refs⟩)).trans h_refs⟩
  have h_before {node : Node} (h_same : node ≠ new) (h_node : arena'.Has node) :
      arena.Has node := by
    rwa [Has, h_old node h_same] at h_node
  refine ⟨fun node h_node => ?_, fun node refs' h_node ref h_ref => ?_,
    fun node node' h_node' h_lt => ?_⟩
  · by_cases h_same : node = new
    · rw [h_same, Function.update_self, h_size]
      exact Nat.lt_succ_self _
    · rw [Function.update_of_ne h_same, h_size]
      exact Nat.lt_succ_of_lt (h.bounded node (h_before h_same h_node))
  · by_cases h_same : node = new
    · subst h_same
      rw [h_new] at h_node
      cases h_node
      have h_has := h_refs ref h_ref
      rw [Function.update_self, Function.update_of_ne (h_ne h_has)]
      exact ⟨h_keeps h_has, h.bounded ref h_has⟩
    · rw [h_old node h_same] at h_node
      obtain ⟨h_has, h_lt⟩ := h.earlier node refs' h_node ref h_ref
      rw [Function.update_of_ne h_same, Function.update_of_ne (h_ne h_has)]
      exact ⟨h_keeps h_has, h_lt⟩
  · by_cases h_same : node' = new
    · -- whatever has a smaller id than the new one was there
      subst h_same
      have h_first := h_last node h_lt
      rw [Function.update_self, Function.update_of_ne (h_ne h_first)]
      exact h.bounded node h_first
    · have h_has := h_before h_same h_node'
      rw [Function.update_of_ne (h_ne (h_has.of_precedes h_lt)), Function.update_of_ne h_same]
      exact h.ordered node node' h_has h_lt

/-- A type whose parts exist can be interned. -/
theorem Timed.intern {arena : Arena} {time : Node → Nat} (h : arena.Timed time)
    {type : ResolvedType} (h_parts : arena.HasParts type) :
    ∃ time, (arena.intern type).2.Timed time := by
  by_cases h_old : ∃ id, arena.type? id = some type
  · obtain ⟨id, h_id⟩ := h_old
    rw [intern_of_type? h_id]
    exact ⟨time, h⟩
  have h_new (id : TypeId) : arena.type? id ≠ some type := fun h_id => h_old ⟨id, h_id⟩
  -- the new type is the last one
  have h_last : (arena.intern type).2.type? ⟨arena.types.size⟩ = some type := by
    rw [type?_intern_of_new h_new, if_pos rfl]
  refine ⟨_, h.push (.type ⟨arena.types.size⟩) (refs?_type h_last) ?_ (hasParts_iff.mp h_parts)
    ?_ ?_ ?_⟩
  · intro node h_node
    cases node with
    | type id =>
      have h_index : id.index ≠ arena.types.size := by
        intro h_index
        exact h_node (congrArg Node.type (TypeId.ext h_index))
      rw [refs?, refs?, type?_intern_of_new h_new, if_neg h_index]
    | «class» id => rfl
  · rw [has_type_iff]
    exact Nat.lt_irrefl _
  · rw [size, size, size_intern_of_new h_new]
    exact Nat.add_right_comm _ _ _
  · intro node h_lt
    cases node with
    | type id => exact has_type_iff.mpr h_lt
    | «class» id => exact absurd h_lt not_false

/-- A class can be inserted if all that it refers to exists. -/
theorem Timed.insert {arena : Arena} {time : Node → Nat} (h : arena.Timed time)
    {c : ResolvedClass} (h_refs : ∀ ref ∈ c.refs, arena.Has ref) :
    ∃ time, (arena.insert c).2.Timed time := by
  cases h_found : arena.find? c.key with
  | some id =>
    rw [insert_of_find? h_found]
    exact ⟨time, h⟩
  | none =>
    -- the new class is the last one
    have h_last : (arena.insert c).2.class? ⟨arena.classes.size⟩ = some c := by
      rw [class?_insert_of_new h_found, if_pos rfl]
    refine ⟨_, h.push (.class ⟨arena.classes.size⟩) (refs?_class h_last) ?_ h_refs ?_ ?_ ?_⟩
    · intro node h_node
      cases node with
      | type id => rfl
      | «class» id =>
        have h_index : id.index ≠ arena.classes.size := by
          intro h_index
          exact h_node (congrArg Node.class (ClassId.ext h_index))
        rw [refs?, refs?, class?_insert_of_new h_found, if_neg h_index]
    · rw [has_class_iff]
      exact Nat.lt_irrefl _
    · rw [size, size, size_insert_of_new h_found]
      exact (Nat.add_assoc _ _ _).symm
    · intro node h_lt
      cases node with
      | type id => exact absurd h_lt not_false
      | «class» id => exact has_class_iff.mpr h_lt

/-- The clock depends on references alone. -/
theorem Timed.congr {arena arena' : Arena} {time : Node → Nat} (h : arena.Timed time)
    (h_refs : arena'.refs? = arena.refs?) (h_size : arena'.size = arena.size) :
    arena'.Timed time := by
  have h_has {node : Node} : arena'.Has node ↔ arena.Has node := by
    rw [Has, Has, h_refs]
  refine ⟨fun node h_node => ?_, fun node refs h_node ref h_ref => ?_,
    fun node node' h_node' => h.ordered node node' (h_has.mp h_node')⟩
  · exact h_size ▸ h.bounded node (h_has.mp h_node)
  · rw [h_refs] at h_node
    rw [h_has]
    exact h.earlier node refs h_node ref h_ref

/-- **Induction along references.** Something may be assumed for all that a node refers to. -/
theorem Timed.induction {arena : Arena} {time : Node → Nat} (h : arena.Timed time)
    {motive : Node → Prop}
    (step : ∀ node refs, arena.refs? node = some refs → (∀ ref ∈ refs, motive ref) → motive node)
    {node : Node} (h_node : arena.Has node) : motive node := by
  induction h_time : time node using Nat.strongRecOn generalizing node with
  | ind n ih =>
    obtain ⟨refs, h_refs⟩ := h_node
    -- references lead to what is earlier
    refine step node refs h_refs fun ref h_ref => ?_
    obtain ⟨h_has, h_lt⟩ := h.earlier node refs h_refs ref h_ref
    exact ih (time ref) (h_time ▸ h_lt) h_has rfl

/-! ### What a class shows -/

/-- The declaring class of a class is that of the type around it. -/
inductive Encloses (arena : Arena) : Option Lineage → Option ClassId → Prop
  /-- Nothing is around. -/
  | top : Encloses arena none none
  /-- The class of the definition around. -/
  | nested {outer : Lineage} {id : ClassId}
      (found : arena.find? (.ofDefinition outer.frame.definition) = some id) :
      Encloses arena (some outer) (some id)

/-- A class with a given key shows what its definition and the types around it say. -/
structure Shows (m : Metadata) (arena : Arena) (lineage : Lineage) (k : KeyTerm)
    (c : ResolvedClass) : Prop where
  key : arena.UnfoldsKey k c.key
  image : c.image = m.imageOf k.definition
  /-- The namespace of the outermost type. -/
  namespaceName : c.namespaceName = lineage.namespaceName
  /-- The name of the definition. -/
  name : c.name = lineage.frame.name
  /-- The path through the types around. -/
  qualifiedName : c.qualifiedName = lineage.qualifiedName
  declaring : arena.Encloses lineage.outer? c.declaring
  /-- The arguments, or the open parameters of a definition. -/
  genericArgs : arena.UnfoldsAll
    (if k.isInstantiation then k.classArgs else lineage.frame.openArgs) c.genericArgs
  /-- The flags of the definition. -/
  flags : c.flags = lineage.frame.row.attributes
  /-- The kind of the definition. -/
  isValueType : c.isValueType = lineage.frame.row.isValueType
  /-- Whether the definition is an enumeration. -/
  isEnum : c.isEnum = lineage.frame.row.isEnum
  /-- The token of the definition. -/
  token : c.token = lineage.frame.row.token
  /-- How deeply the arguments nest. -/
  depth : c.depth = k.depth

/-- **Soundness.** Nothing leads back to itself, and every class shows what it should. -/
structure Sound (m : Metadata) (arena : Arena) : Prop where
  /-- There is a clock. -/
  timed : ∃ time, arena.Timed time
  /-- Every class is that of a definition with a chain, and shows it. -/
  classes : ∀ id c, arena.class? id = some c →
    ∃ lineage k, m.Traces k.definition lineage ∧ arena.Shows m lineage k c

section Keeping

variable {m : Metadata} {arena arena' : Arena}

theorem Encloses.mono (h_le : arena ≤ arena') {outer : Option Lineage}
    {declaring : Option ClassId} (h : arena.Encloses outer declaring) :
    arena'.Encloses outer declaring := by
  cases h with
  | top => exact .top
  | nested found => exact .nested (find?_mono h_le found)

/-- Whatever a class becomes, it shows the same. -/
theorem Shows.mono (h_le : arena ≤ arena') {lineage : Lineage} {k : KeyTerm}
    {c c' : ResolvedClass} (h : arena.Shows m lineage k c) (h_grows : c.GrowsTo c') :
    arena'.Shows m lineage k c' := by
  rw [h_grows.shell]
  exact
    { key := h.key.mono h_le
      image := h.image
      namespaceName := h.namespaceName
      name := h.name
      qualifiedName := h.qualifiedName
      declaring := h.declaring.mono h_le
      genericArgs := h.genericArgs.mono h_le
      flags := h.flags
      isValueType := h.isValueType
      isEnum := h.isEnum
      token := h.token
      depth := h.depth }

/-- All that a class refers to exists. -/
theorem Shows.has_refs {lineage : Lineage} {k : KeyTerm} {c : ResolvedClass}
    (h : arena.Shows m lineage k c) : ∀ ref ∈ c.refs, arena.Has ref := by
  intro ref h_ref
  rcases List.mem_append.mp h_ref with h_type | h_class
  · obtain ⟨id, h_id, rfl⟩ := List.mem_map.mp h_type
    rw [has_type_iff]
    rcases List.mem_append.mp h_id with h_id | h_id
    · rcases List.mem_append.mp h_id with h_id | h_id
      · -- the arguments of the key
        exact h.key.2.1.hasType id h_id
      · exact h.key.2.2.hasType id h_id
    · exact h.genericArgs.hasType id h_id
  · obtain ⟨id, h_id, rfl⟩ := List.mem_map.mp h_class
    -- the class around was found under its key
    have h_declaring := h.declaring
    cases h_outer : c.declaring with
    | none => simp [h_outer] at h_id
    | some declaring =>
      rw [h_outer] at h_id h_declaring
      obtain rfl := List.mem_singleton.mp h_id
      generalize lineage.outer? = outer at h_declaring
      cases h_declaring with
      | nested found =>
        obtain ⟨c', h_c', -⟩ := find?_eq_some_iff.mp found
        exact has_class_iff.mpr (hasClass_iff.mpr ⟨c', h_c'⟩)

theorem sound_empty (m : Metadata) : empty.Sound m where
  timed := ⟨_, timed_empty⟩
  classes id c h := by cases h

/-- Classes stay sound as long as every one of them was there before. -/
theorem Sound.grow (h : arena.Sound m) (h_le : arena ≤ arena') (h_timed : ∃ time, arena'.Timed time)
    (h_classes : ∀ id, arena'.HasClass id → arena.HasClass id) : arena'.Sound m := by
  refine ⟨h_timed, fun id c' h_c' => ?_⟩
  obtain ⟨c, h_c⟩ := hasClass_iff.mp (h_classes id (hasClass_iff.mpr ⟨c', h_c'⟩))
  -- the class shows what it showed before
  obtain ⟨lineage, k, h_traces, h_shows⟩ := h.classes id c h_c
  obtain ⟨c'', h_c'', h_grows⟩ := class?_mono h_le h_c
  obtain rfl := Option.some.inj (h_c'.symm.trans h_c'')
  exact ⟨lineage, k, h_traces, h_shows.mono h_le h_grows⟩

/-- **Interning** a type whose parts exist. -/
theorem Sound.intern (h : arena.Sound m) {type : ResolvedType} (h_parts : arena.HasParts type) :
    (arena.intern type).2.Sound m := by
  obtain ⟨time, h_time⟩ := h.timed
  exact h.grow (arena.le_intern type) (h_time.intern h_parts) fun id h_id => h_id

/-- **Inserting** a class that shows what it should. -/
theorem Sound.insert (h : arena.Sound m) {c : ResolvedClass} {lineage : Lineage} {k : KeyTerm}
    (h_traces : m.Traces k.definition lineage) (h_shows : arena.Shows m lineage k c) :
    (arena.insert c).2.Sound m := by
  obtain ⟨time, h_time⟩ := h.timed
  have h_le := arena.le_insert c
  refine ⟨h_time.insert h_shows.has_refs, fun id c' h_c' => ?_⟩
  rcases class?_insert_cases h_c' with h_old | ⟨-, rfl⟩
  · obtain ⟨lineage', k', h_traces', h_shows'⟩ := h.classes id c' h_old
    exact ⟨lineage', k', h_traces', h_shows'.mono h_le (.refl c')⟩
  · exact ⟨lineage, k, h_traces, h_shows.mono h_le (.refl c')⟩

theorem Sound.truncate (h : arena.Sound m) : arena.truncate.Sound m := by
  obtain ⟨time, h_time⟩ := h.timed
  exact h.grow arena.le_truncate ⟨time, h_time.congr rfl rfl⟩ fun id h_id => h_id

theorem Sound.publish (h : arena.Sound m) (owner : ClassId) (members : Members) :
    (arena.publish owner members).Sound m := by
  obtain ⟨time, h_time⟩ := h.timed
  refine h.grow (arena.le_publish owner members) ⟨time, h_time.congr ?_ ?_⟩ fun id h_id => ?_
  · funext node
    cases node with
    | type id => rfl
    | «class» id =>
      rw [refs?, refs?, class?_publish]
      split
      · cases arena.class? id <;> rfl
      · rfl
  · rw [size, size, size_publish]
    rfl
  · rwa [HasClass, size_publish] at h_id

end Keeping

/-! ### Everything has a meaning -/

section Meaning

variable {m : Metadata} {arena : Arena}

theorem exists_unfoldsAll {ids : List TypeId} (h : ∀ id ∈ ids, ∃ t, arena.Unfolds t id) :
    ∃ ts, arena.UnfoldsAll ts ids := by
  induction ids with
  | nil => exact ⟨[], .nil⟩
  | cons id ids ih =>
    obtain ⟨t, h_t⟩ := h id List.mem_cons_self
    obtain ⟨ts, h_ts⟩ := ih fun id' h_id' => h id' (List.mem_cons_of_mem id h_id')
    exact ⟨t :: ts, .cons h_t h_ts⟩

/-- **Every id stands for a term.** -/
theorem Sound.exists_unfolds (h : arena.Sound m) {id : TypeId} (h_id : arena.HasType id) :
    ∃ t, arena.Unfolds t id := by
  obtain ⟨time, h_time⟩ := h.timed
  refine h_time.induction (motive := fun
    | .type id => ∃ t, arena.Unfolds t id
    | .class id => ∃ c, arena.class? id = some c) ?_ (has_type_iff.mpr h_id)
  intro node refs h_refs ih
  cases node with
  | «class» id =>
    obtain ⟨c, h_c, -⟩ := Option.map_eq_some_iff.mp h_refs
    exact ⟨c, h_c⟩
  | type id =>
    obtain ⟨type, h_type, rfl⟩ := Option.map_eq_some_iff.mp h_refs
    -- a class stands for its key, whatever the members are
    have from_parts (t : TypeTerm) (h_t : arena.Spells type t) : ∃ t, arena.Unfolds t id :=
      ⟨t, (unfolds_of_type? h_type).mpr h_t⟩
    cases type with
    | void => exact from_parts .void trivial
    | primitive kind => exact from_parts (.primitive kind) rfl
    | «class» owner =>
      obtain ⟨c, h_c⟩ := ih (.class owner) List.mem_cons_self
      obtain ⟨lineage, k, -, h_shows⟩ := h.classes owner c h_c
      exact from_parts k.type ⟨c, h_c, h_shows.key⟩
    | array element rank =>
      obtain ⟨t, h_t⟩ := ih (.type element) List.mem_cons_self
      exact from_parts (.array t rank) ⟨rfl, h_t⟩
    | pointer element =>
      obtain ⟨t, h_t⟩ := ih (.type element) List.mem_cons_self
      exact from_parts (.pointer t) h_t
    | byref element =>
      obtain ⟨t, h_t⟩ := ih (.type element) List.mem_cons_self
      exact from_parts (.byref t) h_t
    | parameter position ofMethod name =>
      exact from_parts (.parameter position ofMethod name) ⟨rfl, rfl, rfl⟩

theorem Sound.exists_unfoldsAll (h : arena.Sound m) {ids : List TypeId}
    (h_ids : ∀ id ∈ ids, arena.HasType id) : ∃ ts, arena.UnfoldsAll ts ids :=
  Arena.exists_unfoldsAll fun id h_id => h.exists_unfolds (h_ids id h_id)

/-- A class shows the key that it has. -/
theorem Sound.shows_of_key (h : arena.Sound m) {id : ClassId} {c : ResolvedClass} {k : KeyTerm}
    (h_c : arena.class? id = some c) (h_k : arena.UnfoldsKey k c.key) :
    ∃ lineage, m.Traces k.definition lineage ∧ arena.Shows m lineage k c := by
  obtain ⟨lineage, k', h_traces, h_shows⟩ := h.classes id c h_c
  obtain rfl := h_k.unique h_shows.key
  exact ⟨lineage, h_traces, h_shows⟩

/-- The class of a definition shows the chain of the definition. -/
theorem Sound.shows_of_definition (h : arena.Sound m) {index : Nat} {id : ClassId}
    (h_found : arena.find? (.ofDefinition index) = some id) :
    ∃ c lineage, arena.class? id = some c ∧ c.key = .ofDefinition index ∧
      m.Traces index lineage ∧ arena.Shows m lineage (.ofDefinition index) c := by
  obtain ⟨c, h_c, h_key⟩ := find?_eq_some_iff.mp h_found
  have h_plain : arena.UnfoldsKey (.ofDefinition index) c.key := by
    rw [h_key]
    exact unfoldsKey_ofDefinition.mpr rfl
  obtain ⟨lineage, h_traces, h_shows⟩ := h.shows_of_key h_c h_plain
  exact ⟨c, lineage, h_c, h_key, h_traces, h_shows⟩

/-- A key of an old class stands for nothing new. -/
theorem Sound.unfoldsKey_of_le {arena' : Arena} (h : arena.Sound m) {id : ClassId}
    {c : ResolvedClass} (h_c : arena.class? id = some c) (h_le : arena ≤ arena') {k : KeyTerm}
    (h_k : arena'.UnfoldsKey k c.key) : arena.UnfoldsKey k c.key := by
  obtain ⟨lineage, k', -, h_shows⟩ := h.classes id c h_c
  -- the key stood for something before, and stands for one thing
  obtain rfl := h_k.unique (h_shows.key.mono h_le)
  exact h_shows.key

/-- What was created before is not something else of its kind with the greater id. -/
theorem Timed.not_precedes {time : Node → Nat} (h : arena.Timed time) {part node : Node}
    (h_part : arena.Has part) (h_lt : time part < time node) :
    part ≠ node ∧ ¬ node.Precedes part := by
  constructor
  · rintro rfl
    exact Nat.lt_irrefl _ h_lt
  · exact fun h_precedes => Nat.lt_asymm h_lt (h.ordered node part h_part h_precedes)

/-- What was created before has the smaller id. -/
theorem Timed.type_lt {time : Node → Nat} (h : arena.Timed time) {part id : TypeId}
    (h_part : arena.HasType part) (h_lt : time (.type part) < time (.type id)) :
    part.index < id.index := by
  obtain ⟨h_ne, h_not⟩ := h.not_precedes (has_type_iff.mpr h_part) h_lt
  refine (Nat.lt_or_eq_of_le (Nat.not_lt.mp h_not)).resolve_right fun h_index => h_ne ?_
  exact congrArg Node.type (TypeId.ext h_index)

theorem Timed.class_lt {time : Node → Nat} (h : arena.Timed time) {part id : ClassId}
    (h_part : arena.HasClass part) (h_lt : time (.class part) < time (.class id)) :
    part.index < id.index := by
  obtain ⟨h_ne, h_not⟩ := h.not_precedes (has_class_iff.mpr h_part) h_lt
  refine (Nat.lt_or_eq_of_le (Nat.not_lt.mp h_not)).resolve_right fun h_index => h_ne ?_
  exact congrArg Node.class (ClassId.ext h_index)

/-- A part comes before the type made of it. -/
theorem Sound.part_lt (h : arena.Sound m) {id part : TypeId} {type : ResolvedType}
    (h_id : arena.type? id = some type) (h_part : .type part ∈ type.refs) :
    part.index < id.index := by
  obtain ⟨time, h_time⟩ := h.timed
  obtain ⟨h_has, h_lt⟩ := h_time.earlier _ _ (refs?_type h_id) _ h_part
  exact h_time.type_lt (has_type_iff.mp h_has) h_lt

/-- An argument comes before the type of the class. -/
theorem Sound.arg_lt (h : arena.Sound m) {id arg : TypeId} {owner : ClassId} {c : ResolvedClass}
    (h_id : arena.type? id = some (.class owner)) (h_c : arena.class? owner = some c)
    (h_arg : arg ∈ c.key.classArgs ++ c.key.methodArgs) : arg.index < id.index := by
  obtain ⟨time, h_time⟩ := h.timed
  have h_mem : Node.type arg ∈ c.refs :=
    List.mem_append_left _ (List.mem_map_of_mem (List.mem_append_left _ h_arg))
  -- the class lies between the argument and the type
  obtain ⟨-, h_lt⟩ := h_time.earlier _ _ (refs?_type h_id) _ List.mem_cons_self
  obtain ⟨h_has, h_lt'⟩ := h_time.earlier _ _ (refs?_class h_c) _ h_mem
  exact h_time.type_lt (has_type_iff.mp h_has) (Nat.lt_trans h_lt' h_lt)

theorem Sound.termWithin_eq (h : arena.Sound m) {t : TypeTerm} {id : TypeId} {fuel : Nat}
    (h_t : arena.Unfolds t id) (h_fuel : id.index < fuel) : arena.termWithin fuel id = some t := by
  induction fuel generalizing t id with
  | zero => exact absurd h_fuel (Nat.not_lt_zero _)
  | succ fuel ih =>
    have h_le : id.index ≤ fuel := Nat.le_of_lt_succ h_fuel
    cases t with
    | void | primitive | parameter =>
      rw [Unfolds] at h_t
      simp [termWithin, h_t]
    | «class» definition classArgs methodArgs =>
      obtain ⟨owner, c, h_id, h_c, h_definition, h_class, h_method⟩ := h_t
      -- arguments were created before the type of the class
      have h_arg {arg : TypeId} (h_mem : arg ∈ c.key.classArgs ++ c.key.methodArgs) :
          arg.index < fuel := Nat.lt_of_lt_of_le (h.arg_lt h_id h_c h_mem) h_le
      have h_classArgs := mapM_of_unfoldsAll h_class (fun u => u) fun _ _ h_mem h_u =>
        ih h_u (h_arg (List.mem_append_left _ h_mem))
      have h_methodArgs := mapM_of_unfoldsAll h_method (fun u => u) fun _ _ h_mem h_u =>
        ih h_u (h_arg (List.mem_append_right _ h_mem))
      simp [termWithin, h_id, h_c, h_classArgs, h_methodArgs, h_definition]
    | array element | pointer element | byref element =>
      obtain ⟨part, h_id, h_part⟩ := h_t
      have h_lt := Nat.lt_of_lt_of_le (h.part_lt h_id List.mem_cons_self) h_le
      simp [termWithin, h_id, ih h_part h_lt]

/-- **Unfolding computes terms.** -/
theorem Sound.term?_eq_some_iff (h : arena.Sound m) {t : TypeTerm} {id : TypeId} :
    arena.term? id = some t ↔ arena.Unfolds t id :=
  ⟨unfolds_of_termWithin, fun h_t => h.termWithin_eq h_t h_t.hasType⟩

theorem Sound.term?_eq (h : arena.Sound m) {t : TypeTerm} {id : TypeId}
    (h_t : arena.Unfolds t id) : arena.term? id = some t :=
  h.term?_eq_some_iff.mpr h_t

theorem Sound.mapM_term?_eq (h : arena.Sound m) {ts : List TypeTerm} {ids : List TypeId}
    (h_ts : arena.UnfoldsAll ts ids) : ids.mapM arena.term? = some ts := by
  rw [mapM_of_unfoldsAll h_ts (fun u => u) fun _ _ _ h_u => h.term?_eq h_u, List.map_id']

theorem Sound.depthWithin_eq (h : arena.Sound m) {t : TypeTerm} {id : TypeId} {fuel : Nat}
    (h_t : arena.Unfolds t id) (h_fuel : id.index < fuel) :
    arena.depthWithin fuel id = t.depth := by
  induction fuel generalizing t id with
  | zero => exact absurd h_fuel (Nat.not_lt_zero _)
  | succ fuel ih =>
    have h_le : id.index ≤ fuel := Nat.le_of_lt_succ h_fuel
    cases t with
    | void | primitive | parameter =>
      rw [Unfolds] at h_t
      simp [depthWithin, h_t, TypeTerm.depth]
    | «class» definition classArgs methodArgs =>
      obtain ⟨owner, c, h_id, h_c, h_key⟩ := h_t
      obtain ⟨lineage, -, h_shows⟩ :=
        h.shows_of_key (k := ⟨definition, classArgs, methodArgs⟩) h_c h_key
      rw [depthWithin, h_id]
      show (arena.class? owner).elim 0 (·.depth) = _
      rw [h_c, Option.elim_some, h_shows.depth]
      rfl
    | array element | pointer element | byref element =>
      obtain ⟨part, h_id, h_part⟩ := h_t
      have h_lt := Nat.lt_of_lt_of_le (h.part_lt h_id List.mem_cons_self) h_le
      simp [depthWithin, h_id, TypeTerm.depth, ih h_part h_lt]

/-- **The depth of a type** is that of the term that it stands for. -/
theorem Sound.depth_eq (h : arena.Sound m) {t : TypeTerm} {id : TypeId}
    (h_t : arena.Unfolds t id) : arena.depth id = t.depth :=
  h.depthWithin_eq h_t (Nat.lt_succ_of_lt h_t.hasType)

theorem Sound.depths_eq (h : arena.Sound m) {ts : List TypeTerm} {ids : List TypeId}
    (h_ts : arena.UnfoldsAll ts ids) (start : Nat) :
    (ids.map arena.depth).foldl max start = max start (TypeTerm.depths ts) := by
  induction ts generalizing ids start with
  | nil =>
    subst h_ts
    exact (Nat.max_zero start).symm
  | cons t ts ih =>
    obtain ⟨id, rest, rfl, h_t, h_rest⟩ := h_ts
    rw [List.map_cons, List.foldl_cons, ih h_rest, h.depth_eq h_t, TypeTerm.depths, Nat.max_assoc]

/-- **The depth of a key** is that of the key that it stands for. -/
theorem Sound.keyDepth_eq (h : arena.Sound m) {k : KeyTerm} {key : ClassKey}
    (h_k : arena.UnfoldsKey k key) : arena.keyDepth key = k.depth := by
  have h_same := h_k.isInstantiation_eq
  rw [keyDepth]
  split
  next h_inst =>
    rw [h.depths_eq (h_k.2.1.append h_k.2.2) 0, Nat.zero_max, KeyTerm.depth_eq (h_same ▸ h_inst)]
  next h_inst =>
    rw [KeyTerm.depth_eq_zero (h_same ▸ (Bool.not_eq_true _ ▸ h_inst))]

end Meaning

end Arena
end GlobalMetadata
