import GlobalMetadata.Proofs.Nesting
import GlobalMetadata.Proofs.Precedence
import Mathlib.Combinatorics.Pigeonhole

/-!
# How values are stored

The native spelling of a type says how a value of it is stored. A type that is a class is stored
like the class, a pointer or a reference points to something that is stored in its own way, and an
enumeration is stored like its underlying type. The underlying type is filled in when the
enumeration is completed, and may have been created after it, so that the clock
(`Arena.Timed`) does not keep it from leading back.

`Arena.StoredAs` is one step, for types and classes alike. There are two possibilities:

* a node leads into a circle (`Arena.Circular`), and then no number of references is enough to spell
  it (`Arena.Circular.spellingWithin_eq_none`);
* or it does not, and then the bound on references is never reached
  (`Arena.exists_spelling`), since on a longer way some node would be met twice.

In a sound arena every circle goes through enumerations (`Arena.Sound.circular_iff`), and whether
there are enumerations that close one can be read in the tables (`Metadata.StoresAs`).
-/

namespace GlobalMetadata

open Relation

namespace Arena

variable {m : Metadata} {config : Config} {arena : Arena} {node next : Node} {fuel : Nat}

/-! ### Steps -/

/-- The storage of one thing is told by that of another. -/
inductive StoredAs (arena : Arena) : Node → Node → Prop
  /-- A type that is a class. -/
  | class {id : TypeId} {owner : ClassId} (at_id : arena.type? id = some (.class owner)) :
      StoredAs arena (.type id) (.class owner)
  | pointer {id element : TypeId} (at_id : arena.type? id = some (.pointer element)) :
      StoredAs arena (.type id) (.type element)
  | byref {id element : TypeId} (at_id : arena.type? id = some (.byref element)) :
      StoredAs arena (.type id) (.type element)
  /-- An enumeration whose underlying type is published. -/
  | enum {id : ClassId} {c : ResolvedClass} {underlying : TypeId} (at_id : arena.class? id = some c)
      (isEnum : c.isEnum = true) (published : c.underlying = some underlying) :
      StoredAs arena (.class id) (.type underlying)

/-- Something is stored as what is, in some steps, stored as itself. -/
def Circular (arena : Arena) (node : Node) : Prop :=
  ∃ repeated, ReflTransGen arena.StoredAs node repeated ∧
    TransGen arena.StoredAs repeated repeated

/-- The native spelling of a type or a class, following at most `fuel` references. -/
def spellingWithin (arena : Arena) (fuel : Nat) : Node → Option String
  | .type id => arena.nativeWithin fuel id
  | .class id => arena.classNativeWithin fuel id

@[simp] theorem spellingWithin_type (fuel : Nat) (id : TypeId) :
    arena.spellingWithin fuel (.type id) = arena.nativeWithin fuel id := rfl

@[simp] theorem spellingWithin_class (fuel : Nat) (id : ClassId) :
    arena.spellingWithin fuel (.class id) = arena.classNativeWithin fuel id := rfl

theorem spellingWithin_zero (node : Node) : arena.spellingWithin 0 node = none := by
  cases node
  · rw [spellingWithin, nativeWithin]
  · rw [spellingWithin, classNativeWithin]

/-- Only what exists is stored as something. -/
theorem StoredAs.has (h : arena.StoredAs node next) : arena.Has node := by
  cases h with
  | «class» h_id | pointer h_id | byref h_id => exact ⟨_, refs?_type h_id⟩
  | enum h_c => exact ⟨_, refs?_class h_c⟩

/-- What something is stored as is spelled first. -/
theorem StoredAs.spellingWithin_eq (h : arena.StoredAs node next) :
    ∃ wrap : String → String, ∀ fuel,
      arena.spellingWithin (fuel + 1) node = (arena.spellingWithin fuel next).map wrap := by
  cases h with
  | «class» h_id =>
    refine ⟨fun text => text, fun fuel => ?_⟩
    simp [spellingWithin, nativeWithin, h_id]
  | pointer h_id | byref h_id =>
    refine ⟨pointerTo, fun fuel => ?_⟩
    simp [spellingWithin, nativeWithin, h_id]
  | enum h_c h_enum h_underlying =>
    refine ⟨fun text => text, fun fuel => ?_⟩
    simp [spellingWithin, classNativeWithin, h_c, h_enum, h_underlying]

/-- What is stored in its own way is spelled at once. -/
theorem spellingWithin_of_last (h : ∀ next, ¬ arena.StoredAs node next) :
    ∃ text, ∀ fuel, arena.spellingWithin (fuel + 1) node = some text := by
  cases node with
  | type id =>
    simp only [spellingWithin, nativeWithin]
    cases h_id : arena.type? id with
    | none => exact ⟨_, fun _ => rfl⟩
    | some type =>
      cases type with
      | «class» owner => exact absurd (.class h_id) (h _)
      | pointer element => exact absurd (.pointer h_id) (h _)
      | byref element => exact absurd (.byref h_id) (h _)
      | void | primitive | array | parameter => exact ⟨_, fun _ => rfl⟩
  | «class» id =>
    simp only [spellingWithin, classNativeWithin]
    cases h_c : arena.class? id with
    | none => exact ⟨_, fun _ => rfl⟩
    | some c =>
      dsimp only
      split
      next h_enum =>
        cases h_underlying : c.underlying with
        | none => exact ⟨_, fun _ => rfl⟩
        | some underlying => exact absurd (.enum h_c h_enum h_underlying) (h _)
      next => exact ⟨_, fun _ => rfl⟩

/-! ### Circles -/

/-- What leads into a circle leads there through what it is stored as. -/
theorem Circular.exists_next (h : arena.Circular node) :
    ∃ next, arena.StoredAs node next ∧ arena.Circular next := by
  obtain ⟨repeated, h_path, h_circle⟩ := h
  rcases ReflTransGen.cases_head h_path with rfl | ⟨next, h_step, h_rest⟩
  · -- the node is part of the circle, and so is the next one
    obtain ⟨next, h_step, h_rest⟩ := TransGen.head'_iff.mp h_circle
    exact ⟨next, h_step, node, h_rest, h_circle⟩
  · exact ⟨next, h_step, repeated, h_rest, h_circle⟩

/-- **No number of references is enough** to spell what leads into a circle. -/
theorem Circular.spellingWithin_eq_none (h : arena.Circular node) (fuel : Nat) :
    arena.spellingWithin fuel node = none := by
  induction fuel generalizing node with
  | zero => exact spellingWithin_zero node
  | succ fuel ih =>
    obtain ⟨next, h_step, h_next⟩ := h.exists_next
    obtain ⟨wrap, h_wrap⟩ := h_step.spellingWithin_eq
    rw [h_wrap, ih h_next, Option.map_none]

/-- What is spelled is spelled the same when more references may be followed. -/
theorem spellingWithin_mono {fuel' : Nat} (h_le : fuel ≤ fuel') {text : String}
    (h : arena.spellingWithin fuel node = some text) :
    arena.spellingWithin fuel' node = some text := by
  induction fuel generalizing node fuel' text with
  | zero =>
    rw [spellingWithin_zero] at h
    cases h
  | succ fuel ih =>
    obtain ⟨fuel', rfl⟩ := Nat.exists_eq_add_of_le' (Nat.le_trans (Nat.succ_pos fuel) h_le)
    by_cases h_last : ∃ next, arena.StoredAs node next
    · obtain ⟨next, h_step⟩ := h_last
      obtain ⟨wrap, h_wrap⟩ := h_step.spellingWithin_eq
      rw [h_wrap] at h
      obtain ⟨text', h_text', rfl⟩ := Option.map_eq_some_iff.mp h
      rw [h_wrap, ih (Nat.le_of_succ_le_succ h_le) h_text', Option.map_some]
    · obtain ⟨text', h_text'⟩ := spellingWithin_of_last (not_exists.mp h_last)
      rw [h_text'] at h ⊢
      exact h

/-- As many steps as were not enough can be made. -/
theorem exists_path (h : arena.spellingWithin fuel node = none) :
    ∃ path : Nat → Node, path 0 = node ∧ ∀ i < fuel, arena.StoredAs (path i) (path (i + 1)) := by
  induction fuel generalizing node with
  | zero => exact ⟨fun _ => node, rfl, fun i h_i => absurd h_i (Nat.not_lt_zero i)⟩
  | succ fuel ih =>
    by_cases h_last : ∃ next, arena.StoredAs node next
    · obtain ⟨next, h_step⟩ := h_last
      obtain ⟨wrap, h_wrap⟩ := h_step.spellingWithin_eq
      rw [h_wrap, Option.map_eq_none_iff] at h
      obtain ⟨path, rfl, h_path⟩ := ih h
      -- the way goes on from the next node
      refine ⟨Nat.rec node fun i _ => path i, rfl, fun i h_i => ?_⟩
      cases i with
      | zero => exact h_step
      | succ i => exact h_path i (Nat.lt_of_succ_lt_succ h_i)
    · obtain ⟨text, h_text⟩ := spellingWithin_of_last (not_exists.mp h_last)
      rw [h_text] at h
      cases h

theorem reflTransGen_of_path {path : Nat → Node}
    (h : ∀ i < fuel, arena.StoredAs (path i) (path (i + 1))) {i j : Nat} (h_le : i ≤ j)
    (h_j : j ≤ fuel) : ReflTransGen arena.StoredAs (path i) (path j) := by
  induction j, h_le using Nat.le_induction with
  | base => exact .refl
  | succ j _ ih => exact (ih (Nat.le_of_succ_le h_j)).tail (h j h_j)

/-- The nodes of an arena, numbered: types first, then classes. -/
def number (arena : Arena) : Node → Nat
  | .type id => id.index
  | .class id => arena.types.size + id.index

theorem number_lt (h : arena.Has node) : arena.number node < arena.size := by
  cases node with
  | type id => exact Nat.lt_of_lt_of_le (has_type_iff.mp h) (Nat.le_add_right _ _)
  | «class» id => exact Nat.add_lt_add_left (has_class_iff.mp h) _

/-- Different nodes have different numbers. -/
theorem eq_of_number_eq (h : arena.Has node) (h' : arena.Has next)
    (h_number : arena.number node = arena.number next) : node = next := by
  cases node with
  | type id =>
    cases next with
    | type id' => exact congrArg Node.type (TypeId.ext h_number)
    | «class» id' =>
      -- a type comes before all classes
      have h_lt : id.index < arena.types.size := has_type_iff.mp h
      simp only [number] at h_number
      omega
  | «class» id =>
    cases next with
    | type id' =>
      have h_lt : id'.index < arena.types.size := has_type_iff.mp h'
      simp only [number] at h_number
      omega
    | «class» id' => exact congrArg Node.class (ClassId.ext (Nat.add_left_cancel h_number))

/-- **A long way meets some node twice**, since every node on it but the last one exists. -/
theorem circular_of_path {path : Nat → Node}
    (h : ∀ i < fuel, arena.StoredAs (path i) (path (i + 1))) (h_long : arena.size < fuel) :
    arena.Circular (path 0) := by
  obtain ⟨i, h_i, j, h_j, h_ne, h_same⟩ := Finset.exists_ne_map_eq_of_card_lt_of_maps_to
    (s := Finset.range fuel) (t := Finset.range arena.size) (f := fun i => arena.number (path i))
    (by rwa [Finset.card_range, Finset.card_range]) fun i h_i =>
      Finset.mem_range.mpr (number_lt (h i (Finset.mem_range.mp h_i)).has)
  rw [Finset.mem_range] at h_i h_j
  have h_path := eq_of_number_eq (h i h_i).has (h j h_j).has h_same
  -- the earlier of the two leads to the later one
  wlog h_lt : i < j generalizing i j
  · exact this j h_j i h_i h_ne.symm h_same.symm h_path.symm
      (Nat.lt_of_le_of_ne (Nat.not_lt.mp h_lt) h_ne.symm)
  refine ⟨path i, reflTransGen_of_path h (Nat.zero_le i) h_i.le, ?_⟩
  have h_circle := TransGen.head' (h i h_i) (reflTransGen_of_path h h_lt h_j.le)
  rwa [← h_path] at h_circle

/-- **The bound is enough** to spell what leads into no circle. -/
theorem exists_spelling (h : ¬ arena.Circular node) :
    ∃ text, arena.spellingWithin arena.spellingBound node = some text := by
  cases h_text : arena.spellingWithin arena.spellingBound node with
  | some text => exact ⟨text, rfl⟩
  | none =>
    obtain ⟨path, rfl, h_path⟩ := exists_path h_text
    exact absurd (circular_of_path h_path (Nat.lt_succ_self _)) h

/-- An array is named after its element, which comes before it. -/
theorem Sound.exists_elementName (h : arena.Sound m) (id : TypeId) :
    ∃ text, ∀ fuel, arena.HasType id ∧ id.index < fuel ∨ ¬ arena.HasType id ∧ 0 < fuel →
      arena.elementNameWithin fuel id = some text := by
  induction h_index : id.index using Nat.strongRecOn generalizing id with
  | ind n ih =>
    have h_succ {fuel : Nat}
        (h_fuel : arena.HasType id ∧ n < fuel ∨ ¬ arena.HasType id ∧ 0 < fuel) :
        ∃ less, fuel = less + 1 := Nat.exists_eq_succ_of_ne_zero (by omega)
    cases h_id : arena.type? id with
    | none =>
      refine ⟨objectStructure, fun fuel h_fuel => ?_⟩
      obtain ⟨fuel, rfl⟩ := h_succ h_fuel
      rw [elementNameWithin, h_id]
    | some type =>
      have h_has : arena.HasType id := hasType_iff.mpr ⟨type, h_id⟩
      cases type with
      | array element rank =>
        have h_lt := h.part_lt h_id List.mem_cons_self
        obtain ⟨text, h_text⟩ := ih element.index (h_index ▸ h_lt) element rfl
        refine ⟨text ++ "_array", fun fuel h_fuel => ?_⟩
        obtain ⟨fuel, rfl⟩ := h_succ h_fuel
        have h_element : arena.HasType element := Nat.lt_trans h_lt h_has
        obtain ⟨-, h_n⟩ := h_fuel.resolve_right fun h_not => h_not.1 h_has
        rw [elementNameWithin, h_id]
        dsimp only
        rw [h_text fuel (.inl ⟨h_element, by omega⟩)]
        rfl
      | primitive kind =>
        refine ⟨kind.elementName, fun fuel h_fuel => ?_⟩
        obtain ⟨fuel, rfl⟩ := h_succ h_fuel
        rw [elementNameWithin, h_id]
      | «class» owner =>
        refine ⟨arena.classIdentifier owner, fun fuel h_fuel => ?_⟩
        obtain ⟨fuel, rfl⟩ := h_succ h_fuel
        rw [elementNameWithin, h_id]
      | void | pointer | byref | parameter =>
        refine ⟨objectStructure, fun fuel h_fuel => ?_⟩
        obtain ⟨fuel, rfl⟩ := h_succ h_fuel
        rw [elementNameWithin, h_id]

/-- **The name of a type as the element of an array** is found within the bound. -/
theorem Sound.elementNameWithin_stable (h : arena.Sound m) (h_fuel : arena.spellingBound ≤ fuel)
    (id : TypeId) : arena.elementNameWithin fuel id = some (arena.elementName id) := by
  obtain ⟨text, h_text⟩ := h.exists_elementName id
  have h_enough {fuel : Nat} (h_fuel : arena.spellingBound ≤ fuel) :
      arena.HasType id ∧ id.index < fuel ∨ ¬ arena.HasType id ∧ 0 < fuel := by
    rw [spellingBound] at h_fuel
    by_cases h_id : arena.HasType id
    · exact .inl ⟨h_id, Nat.lt_of_lt_of_le h_id (by omega)⟩
    · exact .inr ⟨h_id, by omega⟩
  rw [elementName, h_text _ (h_enough h_fuel), h_text _ (h_enough (le_refl _))]
  rfl

/-! ### Enumerations -/

/-- Through any number of pointers and references, a type is a class. -/
inductive Targets (arena : Arena) : TypeId → ClassId → Prop
  | class {id : TypeId} {owner : ClassId} (at_id : arena.type? id = some (.class owner)) :
      Targets arena id owner
  | pointer {id element : TypeId} {owner : ClassId}
      (at_id : arena.type? id = some (.pointer element)) (rest : Targets arena element owner) :
      Targets arena id owner
  | byref {id element : TypeId} {owner : ClassId}
      (at_id : arena.type? id = some (.byref element)) (rest : Targets arena element owner) :
      Targets arena id owner

/-- The published underlying type of an enumeration is, through any number of pointers and
references, another class. -/
def StoredLike (arena : Arena) (id owner : ClassId) : Prop :=
  ∃ c underlying, arena.class? id = some c ∧ c.isEnum = true ∧ c.underlying = some underlying ∧
    arena.Targets underlying owner

theorem Targets.path {id : TypeId} {owner : ClassId} (h : arena.Targets id owner) :
    ReflTransGen arena.StoredAs (.type id) (.class owner) := by
  induction h with
  | «class» h_id => exact .single (.class h_id)
  | pointer h_id _ ih => exact .head (.pointer h_id) ih
  | byref h_id _ ih => exact .head (.byref h_id) ih

theorem StoredLike.path {id owner : ClassId} (h : arena.StoredLike id owner) :
    TransGen arena.StoredAs (.class id) (.class owner) := by
  obtain ⟨c, underlying, h_c, h_enum, h_underlying, h_target⟩ := h
  exact .head' (.enum h_c h_enum h_underlying) h_target.path

/-- A way that ends at a class goes from enumeration to enumeration. -/
theorem storedLike_of_path {owner : ClassId}
    (h : ReflTransGen arena.StoredAs node (.class owner)) :
    (∀ id, node = .class id → ReflTransGen arena.StoredLike id owner) ∧
      ∀ id, node = .type id → ∃ next, arena.Targets id next ∧
        ReflTransGen arena.StoredLike next owner := by
  induction h using ReflTransGen.head_induction_on with
  | refl =>
    refine ⟨fun id h_id => ?_, fun id h_id => by cases h_id⟩
    cases h_id
    exact .refl
  | head h_step _ ih =>
    refine ⟨fun id h_id => ?_, fun id h_id => ?_⟩
    · subst h_id
      cases h_step with
      | enum h_c h_enum h_underlying =>
        obtain ⟨next, h_target, h_rest⟩ := ih.2 _ rfl
        exact .head ⟨_, _, h_c, h_enum, h_underlying, h_target⟩ h_rest
    · subst h_id
      cases h_step with
      | «class» h_id => exact ⟨_, .class h_id, ih.1 _ rfl⟩
      | pointer h_id =>
        obtain ⟨next, h_target, h_rest⟩ := ih.2 _ rfl
        exact ⟨next, .pointer h_id h_target, h_rest⟩
      | byref h_id =>
        obtain ⟨next, h_target, h_rest⟩ := ih.2 _ rfl
        exact ⟨next, .byref h_id h_target, h_rest⟩

/-- A circle of steps is a circle of enumerations. -/
theorem storedLike_of_circle {id : ClassId} (h : TransGen arena.StoredAs (.class id) (.class id)) :
    TransGen arena.StoredLike id id := by
  obtain ⟨next, h_step, h_rest⟩ := TransGen.head'_iff.mp h
  cases h_step with
  | enum h_c h_enum h_underlying =>
    obtain ⟨other, h_target, h_path⟩ := (storedLike_of_path h_rest).2 _ rfl
    exact .head' ⟨_, _, h_c, h_enum, h_underlying, h_target⟩ h_path

/-- A way that does not come upon an enumeration leads back in time. -/
theorem class_or_refers (h : TransGen arena.StoredAs node next) :
    (∃ id, ReflTransGen arena.StoredAs node (.class id) ∧
      TransGen arena.StoredAs (.class id) next) ∨ TransGen arena.Refers node next := by
  have h_step {node next : Node} (h : arena.StoredAs node next) :
      (∃ id, node = .class id) ∨ arena.Refers node next := by
    cases h with
    | «class» h_id | pointer h_id | byref h_id =>
      exact .inr ⟨_, refs?_type h_id, List.mem_cons_self⟩
    | enum => exact .inl ⟨_, rfl⟩
  induction h using TransGen.head_induction_on with
  | single h_last =>
    rcases h_step h_last with ⟨id, rfl⟩ | h_refers
    · exact .inl ⟨id, .refl, .single h_last⟩
    · exact .inr (.single h_refers)
  | head h_first h_rest ih =>
    rcases h_step h_first with ⟨id, rfl⟩ | h_refers
    · exact .inl ⟨id, .refl, .head h_first h_rest⟩
    · rcases ih with ⟨id, h_path, h_circle⟩ | h_earlier
      · exact .inl ⟨id, .head h_first h_path, h_circle⟩
      · exact .inr (.head h_refers h_earlier)

/-- **Enumerations close circles.** Something leads into a circle exactly if it leads to an
enumeration that leads back to itself. -/
theorem Sound.circular_iff (h : arena.Sound m) : arena.Circular node ↔
    ∃ id, ReflTransGen arena.StoredAs node (.class id) ∧ TransGen arena.StoredLike id id := by
  constructor
  · rintro ⟨repeated, h_path, h_circle⟩
    rcases class_or_refers h_circle with ⟨id, h_id, h_back⟩ | h_refers
    · exact ⟨id, h_path.trans h_id, storedLike_of_circle (h_back.trans_left h_id)⟩
    · obtain ⟨time, h_time⟩ := h.timed
      exact absurd (h_time.earlier_of_transGen h_refers).2 (Nat.lt_irrefl _)
  · rintro ⟨id, h_path, h_circle⟩
    exact ⟨.class id, h_path, TransGen.lift' Node.class (fun _ _ => StoredLike.path) _ _ h_circle⟩

/-- A class leads into a circle if the enumerations that it is stored like do. -/
theorem Sound.circular_class_iff (h : arena.Sound m) {id : ClassId} :
    arena.Circular (.class id) ↔ ∃ owner, ReflTransGen arena.StoredLike id owner ∧
      TransGen arena.StoredLike owner owner := by
  rw [h.circular_iff]
  refine exists_congr fun owner => and_congr_left fun _ => ?_
  constructor
  · intro h_path
    exact (storedLike_of_path h_path).1 id rfl
  · intro h_way
    exact ReflTransGen.lift' Node.class (fun _ _ h_like => (StoredLike.path h_like).to_reflTransGen)
      _ _ h_way

/-- A type leads into a circle if the class does that its pointers and references lead to. -/
theorem Sound.circular_type_iff (h : arena.Sound m) {id : TypeId} :
    arena.Circular (.type id) ↔ ∃ owner, arena.Targets id owner ∧ arena.Circular (.class owner) := by
  constructor
  · intro h_circular
    obtain ⟨last, h_path, h_circle⟩ := h.circular_iff.mp h_circular
    obtain ⟨owner, h_target, h_way⟩ := (storedLike_of_path h_path).2 id rfl
    exact ⟨owner, h_target, h.circular_class_iff.mpr ⟨last, h_way, h_circle⟩⟩
  · rintro ⟨owner, h_target, repeated, h_path, h_circle⟩
    exact ⟨repeated, h_target.path.trans h_path, h_circle⟩

end Arena

/-! ### Enumerations in the tables -/

/-- What pointers and references lead to in the end. -/
def TypeTerm.pointee : TypeTerm → TypeTerm
  | .pointer element | .byref element => element.pointee
  | t => t

/-- The element type of an enumeration is, through any number of pointers and references, another
class. -/
def Metadata.StoresAs (m : Metadata) (config : Config) (k k' : KeyTerm) : Prop :=
  ∃ t underlying, (m.membersMeaning config k).value = some t ∧ t.underlying = some underlying ∧
    underlying.pointee = k'.type

namespace Meaning

/-- The underlying type is that of the row of the definition. -/
theorem underlying_value_of_members {m : Metadata} {maxDepth : Nat} {owner : KeyTerm}
    {t : MembersTerm} (h : (members m maxDepth owner).value = some t) :
    ∃ row, m.typeDefinition owner.definition = .ok row ∧
      (underlying m maxDepth (.ofKey owner) row).value = some t.underlying := by
  obtain ⟨row, h_row, h⟩ := bind_value_eq_some_iff.mp h
  obtain ⟨_, h_underlying, h⟩ := bind_value_eq_some_iff.mp h
  obtain ⟨_, -, h⟩ := bind_value_eq_some_iff.mp h
  obtain ⟨_, -, h⟩ := bind_value_eq_some_iff.mp h
  obtain ⟨_, -, h⟩ := bind_value_eq_some_iff.mp h
  cases h
  exact ⟨row, read_value_eq_some_iff.mp h_row, h_underlying⟩

/-- There is an underlying type exactly if the row is that of an enumeration and names one. -/
theorem isSome_of_underlying_value {m : Metadata} {maxDepth : Nat} {scope : TermScope}
    {row : TypeDefinition} {t : Option TypeTerm}
    (h : (underlying m maxDepth scope row).value = some t) :
    t.isSome = (row.isEnum && row.elementTypeIndex.isSome) := by
  unfold underlying at h
  cases h_index : row.elementTypeIndex with
  | none =>
    rw [h_index] at h
    cases h
    exact (Bool.and_false _).symm
  | some index =>
    rw [h_index] at h
    dsimp only at h
    cases h_enum : row.isEnum with
    | true =>
      rw [h_enum, if_pos rfl, map_eq_pure_bind] at h
      obtain ⟨_, -, h⟩ := bind_value_eq_some_iff.mp h
      cases h
      rfl
    | false =>
      rw [h_enum, if_neg Bool.false_ne_true] at h
      cases h
      rfl

end Meaning

namespace Arena

variable {m : Metadata} {config : Config} {arena : Arena}

/-- What a type leads to is what its term leads to. -/
theorem Targets.exists_key {id : TypeId} {owner : ClassId} (h : arena.Targets id owner)
    {t : TypeTerm} (h_t : arena.Unfolds t id) :
    ∃ k : KeyTerm, t.pointee = k.type ∧ arena.UnfoldsClass k owner := by
  induction h generalizing t with
  | «class» h_id =>
    rw [unfolds_of_type? h_id] at h_t
    cases t with
    | «class» definition classArgs methodArgs =>
      exact ⟨⟨definition, classArgs, methodArgs⟩, rfl, h_t⟩
    | _ => exact absurd h_t not_false
  | pointer h_id _ ih =>
    rw [unfolds_of_type? h_id] at h_t
    cases t with
    | pointer element =>
      have h_part : arena.Unfolds element _ := h_t
      obtain ⟨k, h_k, h_class⟩ := ih h_part
      exact ⟨k, h_k, h_class⟩
    | _ => exact absurd h_t not_false
  | byref h_id _ ih =>
    rw [unfolds_of_type? h_id] at h_t
    cases t with
    | byref element =>
      have h_part : arena.Unfolds element _ := h_t
      obtain ⟨k, h_k, h_class⟩ := ih h_part
      exact ⟨k, h_k, h_class⟩
    | _ => exact absurd h_t not_false

theorem targets_of_pointee {id : TypeId} {t : TypeTerm} (h_t : arena.Unfolds t id) {k : KeyTerm}
    (h_k : t.pointee = k.type) : ∃ owner, arena.Targets id owner ∧ arena.UnfoldsClass k owner := by
  induction t generalizing id with
  | «class» definition classArgs methodArgs =>
    obtain rfl : ⟨definition, classArgs, methodArgs⟩ = k := KeyTerm.type_inj.mp h_k
    obtain ⟨owner, c, h_id, h_c, h_key⟩ := h_t
    exact ⟨owner, .class h_id, c, h_c, h_key⟩
  | pointer element ih =>
    obtain ⟨part, h_id, h_part⟩ := h_t
    obtain ⟨owner, h_target, h_class⟩ := ih h_part h_k
    exact ⟨owner, .pointer h_id h_target, h_class⟩
  | byref element ih =>
    obtain ⟨part, h_id, h_part⟩ := h_t
    obtain ⟨owner, h_target, h_class⟩ := ih h_part h_k
    exact ⟨owner, .byref h_id h_target, h_class⟩
  | void | primitive | array | parameter => cases h_k

/-- A class stands for one key. -/
theorem UnfoldsClass.unique {k k' : KeyTerm} {id : ClassId} (h : arena.UnfoldsClass k id)
    (h' : arena.UnfoldsClass k' id) : k = k' := by
  obtain ⟨c, h_c, h_k⟩ := h
  obtain ⟨c', h_c', h_k'⟩ := h'
  cases h_c.symm.trans h_c'
  exact h_k.unique h_k'

/-- A key has one class. -/
theorem UnfoldsClass.inj {k : KeyTerm} {id id' : ClassId} (h : arena.UnfoldsClass k id)
    (h' : arena.UnfoldsClass k id') : id = id' := by
  obtain ⟨c, h_c, h_k⟩ := h
  obtain ⟨c', h_c', h_k'⟩ := h'
  exact eq_of_key h_c h_c' (h_k.inj h_k')

/-- **What is published is in the tables.** -/
theorem StoredLike.storesAs (h : arena.Meant m config) {id owner : ClassId}
    (h_like : arena.StoredLike id owner) {k : KeyTerm} (h_k : arena.UnfoldsClass k id) :
    ∃ k', m.StoresAs config k k' ∧ arena.UnfoldsClass k' owner := by
  obtain ⟨c, underlying, h_c, -, h_underlying, h_target⟩ := h_like
  obtain ⟨members, h_members, h_published⟩ := Option.bind_eq_some_iff.mp h_underlying
  obtain ⟨k₀, t, h_k₀, h_t, h_reads⟩ := h id c members h_c h_members
  obtain rfl := h_k.unique ⟨c, h_c, h_k₀⟩
  have h_rel := h_reads.underlying
  rw [h_published] at h_rel
  generalize h_term : t.underlying = term at h_rel
  cases h_rel with
  | some h_unfolds =>
    obtain ⟨k', h_pointee, h_class⟩ := h_target.exists_key h_unfolds
    exact ⟨k', ⟨t, _, h_t, h_term, h_pointee⟩, h_class⟩

/-- **What is in the tables is published**, as soon as the enumeration has members. -/
theorem storedLike_of_storesAs (h_sound : arena.Sound m) (h : arena.Meant m config) {id : ClassId}
    {c : ResolvedClass} (h_c : arena.class? id = some c) (h_resolved : c.isResolved = true)
    {k k' : KeyTerm} (h_k : arena.UnfoldsKey k c.key) (h_stores : m.StoresAs config k k') :
    ∃ owner, arena.StoredLike id owner ∧ arena.UnfoldsClass k' owner := by
  obtain ⟨t, term, h_t, h_term, h_pointee⟩ := h_stores
  obtain ⟨members, h_members⟩ := Option.isSome_iff_exists.mp h_resolved
  obtain ⟨k₀, t', h_k₀, h_t', h_reads⟩ := h id c members h_c h_members
  obtain rfl := h_k.unique h_k₀
  cases h_t.symm.trans h_t'
  -- the class shows that its row is that of an enumeration
  obtain ⟨row, h_row, h_value⟩ := Meaning.underlying_value_of_members h_t
  have h_enum := Meaning.isSome_of_underlying_value h_value
  rw [h_term, Option.isSome_some, eq_comm, Bool.and_eq_true] at h_enum
  obtain ⟨lineage, h_traces, h_shows⟩ := h_sound.shows_of_key h_c h_k
  rw [h_traces.typeDefinition_eq] at h_row
  have h_rel := h_reads.underlying
  rw [h_term] at h_rel
  generalize h_published : members.underlying = published at h_rel
  cases h_rel with
  | @some _ underlying h_unfolds =>
    obtain ⟨owner, h_target, h_class⟩ := targets_of_pointee h_unfolds h_pointee
    refine ⟨owner, ⟨c, underlying, h_c, ?_, ?_, h_target⟩, h_class⟩
    · rw [h_shows.isEnum, Except.ok.inj h_row, h_enum.1]
    · rw [ResolvedClass.underlying, h_members]
      exact h_published

/-- Every way from enumeration to enumeration is one in the tables. -/
theorem storesAs_of_way (h : arena.Meant m config) {id owner : ClassId}
    (h_way : TransGen arena.StoredLike id owner) {k : KeyTerm} (h_k : arena.UnfoldsClass k id) :
    ∃ k', TransGen (m.StoresAs config) k k' ∧ arena.UnfoldsClass k' owner := by
  induction h_way with
  | single h_like =>
    obtain ⟨k', h_stores, h_k'⟩ := h_like.storesAs h h_k
    exact ⟨k', .single h_stores, h_k'⟩
  | tail _ h_like ih =>
    obtain ⟨k', h_stores, h_k'⟩ := ih
    obtain ⟨k'', h_last, h_k''⟩ := h_like.storesAs h h_k'
    exact ⟨k'', .tail h_stores h_last, h_k''⟩

/-- And so every circle is. -/
theorem exists_storesAs_of_circle (h_sound : arena.Sound m) (h : arena.Meant m config)
    {id : ClassId} (h_circle : TransGen arena.StoredLike id id) :
    ∃ k, arena.Holds k ∧ TransGen (m.StoresAs config) k k := by
  obtain ⟨_, ⟨c, _, h_c, -⟩, -⟩ := TransGen.head'_iff.mp h_circle
  obtain ⟨_, k, -, h_shows⟩ := h_sound.classes id c h_c
  obtain ⟨k', h_stores, h_k'⟩ := storesAs_of_way h h_circle ⟨c, h_c, h_shows.key⟩
  obtain rfl := h_k'.unique ⟨c, h_c, h_shows.key⟩
  exact ⟨k', ⟨id, c, h_c, h_shows.key⟩, h_stores⟩

end Arena

end GlobalMetadata
