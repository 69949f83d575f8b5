import GlobalMetadata.Graph.Class
import GlobalMetadata.Graph.Name

/-!
# The arena

All types and classes that resolution has created so far, and the number of instantiations that it
has cut off. Both are catalogs, so that they only grow and an id keeps its meaning forever. There is
one class per key: `Arena.find?` looks a key up, and `Arena.insert` adds a class only under a new
key.

The depth of a type says how deeply generic arguments nest in it. A class has its depth written on
it; an array, a pointer or a reference lies one deeper than its element.
-/

namespace GlobalMetadata

/-- The types and classes created so far. -/
structure Arena where
  types : TypeTable
  /-- The classes, by their ids and by what they are. -/
  classes : Catalog fun c : ResolvedClass => c.key.code
  /-- How often an instantiation was replaced by its open definition. -/
  truncated : Nat

namespace Arena

/-- The arena in which nothing has been created. -/
def empty : Arena :=
  ⟨.empty, .empty, 0⟩

/-- The type with a given id. -/
def type? (arena : Arena) (id : TypeId) : Option ResolvedType :=
  arena.types.get? id

/-- The class with a given id. -/
def class? (arena : Arena) (id : ClassId) : Option ResolvedClass :=
  arena.classes.get? id.index

/-- The class that was created for a key. -/
def find? (arena : Arena) (key : ClassKey) : Option ClassId :=
  ClassId.mk <$> arena.classes.find? key.code

/-- The arena with a type in it, and the id of the type. -/
def intern (arena : Arena) (type : ResolvedType) : TypeId × Arena :=
  let (id, types) := arena.types.intern type
  (id, { arena with types := types })

/-- The arena with a class in it, and the id of the class; a class with the same key stays. -/
def insert (arena : Arena) (c : ResolvedClass) : ClassId × Arena :=
  let (number, classes) := arena.classes.insert c
  (⟨number⟩, { arena with classes := classes })

/-- The arena with one more instantiation cut off. -/
def truncate (arena : Arena) : Arena :=
  { arena with truncated := arena.truncated + 1 }

/-- The arena in which a class has members, unless it had some already. -/
def publish (arena : Arena) (id : ClassId) (members : Members) : Arena :=
  { arena with classes := arena.classes.modify id.index (·.publish members) fun _ => rfl }

/-! ### What the operations leave in place -/

section Operations

variable {arena : Arena} {id : ClassId} {c : ResolvedClass}

/-- A class is found under its key, and under no other one. -/
theorem find?_eq_some_iff {key : ClassKey} :
    arena.find? key = some id ↔ ∃ c, arena.class? id = some c ∧ c.key = key := by
  have number : arena.find? key = some id ↔ arena.classes.find? key.code = some id.index := by
    rw [find?, Option.map_eq_map, Option.map_eq_some_iff]
    exact ⟨fun ⟨_, found, same⟩ => same ▸ found, fun found => ⟨_, found, rfl⟩⟩
  simp only [number, Catalog.find?_eq_some_iff, ClassKey.code_inj, class?]

theorem find?_key (at_id : arena.class? id = some c) : arena.find? c.key = some id :=
  find?_eq_some_iff.mpr ⟨c, at_id, rfl⟩

/-- Two classes with one key are the same. -/
theorem eq_of_key {id' : ClassId} {c' : ResolvedClass} (at_id : arena.class? id = some c)
    (at_id' : arena.class? id' = some c') (same : c.key = c'.key) : id = id' :=
  congrArg ClassId.mk (arena.classes.key_inj at_id at_id' (congrArg ClassKey.code same))

/-- Two ids of one type are the same. -/
theorem eq_of_type? {id id' : TypeId} {type : ResolvedType} (at_id : arena.type? id = some type)
    (at_id' : arena.type? id' = some type) : id = id' :=
  congrArg TypeId.mk (arena.types.types.key_inj at_id at_id' rfl)

theorem type?_intern_of_type? {other type : ResolvedType} {id : TypeId}
    (at_id : arena.type? id = some other) : (arena.intern type).2.type? id = some other :=
  Catalog.get?_insert_of_get? at_id type

/-- An interned type is the type that was asked for. -/
theorem type?_intern_self (arena : Arena) (type : ResolvedType) :
    (arena.intern type).2.type? (arena.intern type).1 = some type := by
  obtain ⟨other, at_id, same⟩ := arena.types.types.get?_insert_self type
  exact at_id.trans (congrArg some (ResolvedType.code_inj.mp same))

/-- A type that is there is not added again. -/
theorem intern_of_type? {id : TypeId} {type : ResolvedType} (at_id : arena.type? id = some type) :
    arena.intern type = (id, arena) := by
  have found := arena.types.types.find?_key at_id
  rw [intern, TypeTable.intern, Catalog.insert_of_find?_eq_some _ found]

theorem find?_code_of_new {type : ResolvedType} (new : ∀ id, arena.type? id ≠ some type) :
    arena.types.types.find? type.code = none := by
  refine arena.types.types.find?_eq_none_iff.mpr fun i other at_i same => ?_
  exact new ⟨i⟩ (at_i.trans (congrArg some (ResolvedType.code_inj.mp same)))

/-- A new type comes last. -/
theorem type?_intern_of_new {type : ResolvedType} (new : ∀ id, arena.type? id ≠ some type)
    (id : TypeId) :
    (arena.intern type).2.type? id =
      if id.index = arena.types.size then some type else arena.type? id := by
  have absent := find?_code_of_new new
  rw [intern, TypeTable.intern, Catalog.insert_of_find?_eq_none _ absent]
  exact Catalog.get?_push _ _ absent id.index

theorem size_intern_of_new {type : ResolvedType} (new : ∀ id, arena.type? id ≠ some type) :
    (arena.intern type).2.types.size = arena.types.size + 1 := by
  have absent := find?_code_of_new new
  rw [intern, TypeTable.intern, Catalog.insert_of_find?_eq_none _ absent]
  exact Catalog.size_push _ _ absent

@[simp] theorem class?_intern (type : ResolvedType) (id : ClassId) :
    (arena.intern type).2.class? id = arena.class? id := rfl

@[simp] theorem find?_intern (type : ResolvedType) (key : ClassKey) :
    (arena.intern type).2.find? key = arena.find? key := rfl

@[simp] theorem truncated_intern (type : ResolvedType) :
    (arena.intern type).2.truncated = arena.truncated := rfl

theorem class?_insert_of_class? (at_id : arena.class? id = some c) (other : ResolvedClass) :
    (arena.insert other).2.class? id = some c :=
  Catalog.get?_insert_of_get? at_id other

/-- A class that is asked for comes with the key that was asked for. -/
theorem class?_insert_self (arena : Arena) (c : ResolvedClass) :
    ∃ c', (arena.insert c).2.class? (arena.insert c).1 = some c' ∧ c'.key = c.key := by
  obtain ⟨c', at_id, same⟩ := arena.classes.get?_insert_self c
  exact ⟨c', at_id, ClassKey.code_inj.mp same⟩

/-- A class whose key is there is not added. -/
theorem insert_of_find? (found : arena.find? c.key = some id) : arena.insert c = (id, arena) := by
  obtain ⟨c', at_id, same⟩ := find?_eq_some_iff.mp found
  have number := arena.classes.find?_key at_id
  rw [same] at number
  rw [insert, Catalog.insert_of_find?_eq_some _ number]

/-- A class with a new key comes last. -/
theorem class?_insert_of_new (new : arena.find? c.key = none) (id : ClassId) :
    (arena.insert c).2.class? id =
      if id.index = arena.classes.size then some c else arena.class? id := by
  have absent : arena.classes.find? c.key.code = none := Option.map_eq_none_iff.mp new
  rw [insert, Catalog.insert_of_find?_eq_none _ absent]
  exact Catalog.get?_push _ _ absent id.index

theorem size_insert_of_new (new : arena.find? c.key = none) :
    (arena.insert c).2.classes.size = arena.classes.size + 1 := by
  have absent : arena.classes.find? c.key.code = none := Option.map_eq_none_iff.mp new
  rw [insert, Catalog.insert_of_find?_eq_none _ absent]
  exact Catalog.size_push _ _ absent

@[simp] theorem type?_insert (c : ResolvedClass) (id : TypeId) :
    (arena.insert c).2.type? id = arena.type? id := rfl

@[simp] theorem truncated_insert (c : ResolvedClass) :
    (arena.insert c).2.truncated = arena.truncated := rfl

@[simp] theorem class?_publish (owner : ClassId) (members : Members) (id : ClassId) :
    (arena.publish owner members).class? id =
      if owner = id then (arena.class? id).map (·.publish members) else arena.class? id := by
  have here :=
    Catalog.get?_modify arena.classes owner.index id.index (·.publish members) fun _ => rfl
  refine here.trans ?_
  simp only [ClassId.ext_iff]
  rfl

@[simp] theorem type?_publish (owner : ClassId) (members : Members) (id : TypeId) :
    (arena.publish owner members).type? id = arena.type? id := rfl

@[simp] theorem size_publish (owner : ClassId) (members : Members) :
    (arena.publish owner members).classes.size = arena.classes.size :=
  Catalog.size_modify arena.classes owner.index (·.publish members) fun _ => rfl

@[simp] theorem truncated_publish (owner : ClassId) (members : Members) :
    (arena.publish owner members).truncated = arena.truncated := rfl

@[simp] theorem type?_truncate (id : TypeId) : arena.truncate.type? id = arena.type? id := rfl

@[simp] theorem class?_truncate (id : ClassId) : arena.truncate.class? id = arena.class? id := rfl

end Operations

/-! ### Depth -/

/-- The depth of a type, followed through at most `fuel` types. -/
def depthWithin (arena : Arena) : Nat → TypeId → Nat
  | 0, _ => 0
  | fuel + 1, id =>
    match arena.type? id with
    | some (.class c) => (arena.class? c).elim 0 (·.depth)
    | some (.array element _) | some (.pointer element) | some (.byref element) =>
      depthWithin arena fuel element + 1
    | _ => 0

/-- The depth of a type. Parts come before the types made of them, so that no path from a type to
its parts is longer than the table. -/
def depth (arena : Arena) (id : TypeId) : Nat :=
  arena.depthWithin (arena.types.size + 1) id

/-- The depth of a key: 0 for a definition, otherwise one more than that of its deepest argument. -/
def keyDepth (arena : Arena) (key : ClassKey) : Nat :=
  if key.isInstantiation then
    ((key.classArgs ++ key.methodArgs).map arena.depth).foldl max 0 + 1
  else 0

end Arena

end GlobalMetadata
