import GlobalMetadata.Graph.Catalog
import GlobalMetadata.TypeKind

/-!
# Interned types

A type that a member mentions is reduced to a `ResolvedType` and kept once: the `TypeTable` hands
out one `TypeId` per distinct type, and two mentions of a type share it. Types refer to their parts
by id, and to classes by `ClassId`.

The table is a catalog, so that it only grows, and different ids stand for different types. The key
of a type spells it out: `ResolvedType.code_inj` says that no two types share one.
-/

namespace GlobalMetadata

/-- The handle of an interned type: its position in the table. -/
@[ext]
structure TypeId where
  index : Nat
  deriving DecidableEq, Repr

/-- The handle of a class: its position in the arena. -/
@[ext]
structure ClassId where
  index : Nat
  deriving DecidableEq, Repr

/-- A resolved type. Generic parameters for which there is an argument do not occur in one; the
parameters that do are open. -/
inductive ResolvedType
  /-- No value. -/
  | void
  /-- A type that its kind describes. -/
  | primitive (kind : TypeKind)
  /-- A class, value type, enumeration or interface, which may be an instantiation. -/
  | class (id : ClassId)
  /-- An array with a number of dimensions. -/
  | array (element : TypeId) (rank : Nat)
  /-- An unmanaged pointer. -/
  | pointer (element : TypeId)
  /-- A reference to a variable. -/
  | byref (element : TypeId)
  /-- An open generic parameter: its position, whether a method owns it, and its name. -/
  | parameter (position : Nat) (ofMethod : Bool) (name : String)
  deriving DecidableEq, Repr

namespace ResolvedType

/-- The key of a type in the table: a tag, then its parts. -/
def code : ResolvedType → List Nat
  | .void => [0]
  | .primitive kind => [1, kind.tag]
  | .class id => [2, id.index]
  | .array element rank => [3, element.index, rank]
  | .pointer element => [4, element.index]
  | .byref element => [5, element.index]
  | .parameter position ofMethod name =>
    6 :: position :: ofMethod.toNat :: name.toList.map Char.toNat

/-- Different types have different keys. -/
theorem code_inj {a b : ResolvedType} : a.code = b.code ↔ a = b := by
  have text (s t : String) : s.toList.map Char.toNat = t.toList.map Char.toNat ↔ s = t := by
    rw [List.map_inj_right fun _ _ => Char.toNat_inj.mp, String.toList_inj]
  have flag (p q : Bool) : p.toNat = q.toNat ↔ p = q := by
    cases p <;> cases q <;> decide
  cases a <;> cases b <;>
    simp [code, text, flag, TypeKind.tag_inj, TypeId.ext_iff, ClassId.ext_iff]

end ResolvedType

/-- The distinct types seen so far, by their ids. -/
structure TypeTable where
  /-- The types in the order in which they were first seen. -/
  types : Catalog ResolvedType.code

namespace TypeTable

/-- The table without types. -/
def empty : TypeTable :=
  ⟨.empty⟩

/-- The number of distinct types. -/
def size (table : TypeTable) : Nat :=
  table.types.size

/-- The type with a given id. -/
def get? (table : TypeTable) (id : TypeId) : Option ResolvedType :=
  table.types.get? id.index

/-- The id of a type, if it is in the table. -/
def find? (table : TypeTable) (type : ResolvedType) : Option TypeId :=
  TypeId.mk <$> table.types.find? type.code

/-- A type is found under its id, and no other one is. -/
theorem find?_eq_some_iff {table : TypeTable} {type : ResolvedType} {id : TypeId} :
    table.find? type = some id ↔ table.get? id = some type := by
  have number : table.find? type = some id ↔ table.types.find? type.code = some id.index := by
    rw [find?, Option.map_eq_map, Option.map_eq_some_iff]
    exact ⟨fun ⟨_, found, same⟩ => same ▸ found, fun found => ⟨_, found, rfl⟩⟩
  simp only [number, Catalog.find?_eq_some_iff, ResolvedType.code_inj, get?]
  exact ⟨fun ⟨_, at_id, same⟩ => same ▸ at_id, fun at_id => ⟨_, at_id, rfl⟩⟩

/-- **Interning.** The id of a type, which is added on first sight. -/
def intern (table : TypeTable) (type : ResolvedType) : TypeId × TypeTable :=
  let (number, types) := table.types.insert type
  (⟨number⟩, ⟨types⟩)

end TypeTable

end GlobalMetadata
