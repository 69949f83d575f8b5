import Std.Data.ExtTreeMap

/-!
# Catalogs

A catalog numbers values in the order in which they come in. Every value has a key, spelt as a list
of numbers, and no two values share one: a value comes in only under a new key, and from then on its
key is found under the same number.

A catalog has two views, the values by their numbers (`Catalog.get?`) and the numbers by their keys
(`Catalog.find?`). `Catalog.coherent` says that one is the inverse of the other; it is part of the
type, so that every catalog that can be made satisfies it.

* `Catalog.insert` adds a value under a new key and gives the number of its key;
* `Catalog.modify` changes a value but not its key.
-/

namespace GlobalMetadata

/-- Values by their numbers and by their keys. -/
structure Catalog {α : Type} (key : α → List Nat) where
  /-- The numbers, by the keys of their values. -/
  numbers : Std.ExtTreeMap (List Nat) Nat
  /-- The values, in the order of their numbers. -/
  values : Array α
  /-- A key has a number exactly if the value with that number has the key. -/
  coherent : ∀ k i, numbers[k]? = some i ↔ values[i]?.map key = some k

namespace Catalog

variable {α : Type} {key : α → List Nat}

/-- The catalog without values. -/
def empty : Catalog key :=
  ⟨∅, #[], by simp⟩

/-- The number of values. -/
def size (catalog : Catalog key) : Nat :=
  catalog.values.size

/-- The values, in the order of their numbers. -/
def toList (catalog : Catalog key) : List α :=
  catalog.values.toList

/-- The value with a number. -/
def get? (catalog : Catalog key) (i : Nat) : Option α :=
  catalog.values[i]?

/-- The number of the value with a key. -/
def find? (catalog : Catalog key) (k : List Nat) : Option Nat :=
  catalog.numbers[k]?

/-- **The two views.** A key is found under a number exactly if the value there has it. -/
theorem find?_eq_some_iff (catalog : Catalog key) {k : List Nat} {i : Nat} :
    catalog.find? k = some i ↔ ∃ a, catalog.get? i = some a ∧ key a = k := by
  rw [find?, catalog.coherent, Option.map_eq_some_iff, get?]

theorem find?_eq_none_iff (catalog : Catalog key) {k : List Nat} :
    catalog.find? k = none ↔ ∀ i a, catalog.get? i = some a → key a ≠ k := by
  rw [Option.eq_none_iff_forall_ne_some]
  simp only [ne_eq, find?_eq_some_iff, not_exists, not_and]

/-- A key is found under the number of any value that has it. -/
theorem find?_key (catalog : Catalog key) {i : Nat} {a : α} (at_i : catalog.get? i = some a) :
    catalog.find? (key a) = some i :=
  catalog.find?_eq_some_iff.mpr ⟨a, at_i, rfl⟩

/-- No two values share a key. -/
theorem key_inj (catalog : Catalog key) {i j : Nat} {a b : α} (at_i : catalog.get? i = some a)
    (at_j : catalog.get? j = some b) (same : key a = key b) : i = j := by
  have found := catalog.find?_key at_i
  rw [same, catalog.find?_key at_j] at found
  exact (Option.some.inj found).symm

/-- The catalog with one more value, whose key is new. -/
def push (catalog : Catalog key) (a : α) (new : catalog.find? (key a) = none) : Catalog key where
  numbers := catalog.numbers.insert (key a) catalog.values.size
  values := catalog.values.push a
  coherent k i := by
    have absent := catalog.find?_eq_none_iff.mp new
    simp only [Std.ExtTreeMap.getElem?_insert, Array.getElem?_push, Std.compare_eq_iff_eq]
    by_cases last : i = catalog.values.size
    · by_cases same : key a = k
      · simp [last, same]
      · simp only [last, same, if_true, if_false, Option.map_some, Option.some.injEq,
          catalog.coherent]
        simp
    · by_cases same : key a = k
      · simp only [same, last, if_true, if_false, Option.some.injEq, Option.map_eq_some_iff]
        refine ⟨fun h => absurd h.symm last, fun ⟨b, at_i, h⟩ => ?_⟩
        exact absurd (h.trans same.symm) (absent i b at_i)
      · simp only [same, last, if_false, catalog.coherent]

/-- **Numbering.** The number of a value's key, and the catalog with the value in it; a value that
has the key already stays. -/
def insert (catalog : Catalog key) (a : α) : Nat × Catalog key :=
  match found : catalog.find? (key a) with
  | some i => (i, catalog)
  | none => (catalog.size, catalog.push a found)

/-- The catalog with one value changed, but not its key. -/
def modify (catalog : Catalog key) (i : Nat) (f : α → α) (keeps : ∀ a, key (f a) = key a) :
    Catalog key where
  numbers := catalog.numbers
  values := catalog.values.modify i f
  coherent k j := by
    rw [catalog.coherent, Array.getElem?_modify]
    by_cases here : i = j
    · cases catalog.values[j]? <;> simp [here, keeps]
    · simp [here]

@[simp] theorem size_empty : (empty : Catalog key).size = 0 :=
  rfl

@[simp] theorem get?_empty (i : Nat) : (empty : Catalog key).get? i = none := by
  simp [get?, empty]

@[simp] theorem get?_push (catalog : Catalog key) (a : α) (new : catalog.find? (key a) = none)
    (i : Nat) :
    (catalog.push a new).get? i = if i = catalog.size then some a else catalog.get? i :=
  Array.getElem?_push

theorem insert_of_find?_eq_some (catalog : Catalog key) {a : α} {i : Nat}
    (found : catalog.find? (key a) = some i) : catalog.insert a = (i, catalog) := by
  unfold insert
  split <;> simp_all

theorem insert_of_find?_eq_none (catalog : Catalog key) {a : α}
    (new : catalog.find? (key a) = none) :
    catalog.insert a = (catalog.size, catalog.push a new) := by
  unfold insert
  split <;> simp_all

theorem lt_size_of_get? {catalog : Catalog key} {i : Nat} {a : α}
    (at_i : catalog.get? i = some a) : i < catalog.size :=
  (Array.getElem?_eq_some_iff.mp at_i).1

theorem exists_get? {catalog : Catalog key} {i : Nat} (small : i < catalog.size) :
    ∃ a, catalog.get? i = some a :=
  ⟨_, Array.getElem?_eq_getElem small⟩

@[simp] theorem size_push (catalog : Catalog key) (a : α) (new : catalog.find? (key a) = none) :
    (catalog.push a new).size = catalog.size + 1 :=
  Array.size_push _

/-- Values that are in a catalog stay where they are. -/
theorem get?_insert_of_get? {catalog : Catalog key} {i : Nat} {a : α}
    (at_i : catalog.get? i = some a) (b : α) : (catalog.insert b).2.get? i = some a := by
  cases found : catalog.find? (key b) with
  | some j => rwa [insert_of_find?_eq_some _ found]
  | none =>
    have old : i ≠ catalog.size := Nat.ne_of_lt (lt_size_of_get? at_i)
    rw [insert_of_find?_eq_none _ found, get?_push, if_neg old, at_i]

/-- The number that numbering gives is that of a value with the same key. -/
theorem get?_insert_self (catalog : Catalog key) (a : α) :
    ∃ b, (catalog.insert a).2.get? (catalog.insert a).1 = some b ∧ key b = key a := by
  cases found : catalog.find? (key a) with
  | some i =>
    rw [insert_of_find?_eq_some _ found]
    exact catalog.find?_eq_some_iff.mp found
  | none =>
    rw [insert_of_find?_eq_none _ found]
    exact ⟨a, by rw [get?_push, if_pos rfl], rfl⟩

@[simp] theorem size_modify (catalog : Catalog key) (i : Nat) (f : α → α)
    (keeps : ∀ a, key (f a) = key a) : (catalog.modify i f keeps).size = catalog.size :=
  Array.size_modify

@[simp] theorem get?_modify (catalog : Catalog key) (i j : Nat) (f : α → α)
    (keeps : ∀ a, key (f a) = key a) :
    (catalog.modify i f keeps).get? j =
      if i = j then (catalog.get? j).map f else catalog.get? j := by
  simp [get?, modify, Array.getElem?_modify]

end Catalog

end GlobalMetadata
