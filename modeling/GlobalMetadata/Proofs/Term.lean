import GlobalMetadata.Proofs.Request
import Mathlib.Data.List.Forall2

/-!
# Types as terms

An id means something only together with the arena that handed it out. What it means without the
arena is a term: the type with every id in it replaced by what the id stands for, and every class by
the definition and the arguments in its key. `Arena.Unfolds` says which term an id stands for, and
`Arena.term?` computes it.

Terms are what two arenas can be compared by, and what resolution is specified by:

* `Arena.Unfolds.mono`: an id keeps its term when the arena grows;
* `Arena.Unfolds.unique` and `Arena.Unfolds.inj`: an id has one term, and a term has one id. The
  second one is what the two look-up tables are for.

All three go by induction on the term, whatever the ids refer to. The depth of a term is computed
from the term alone.
-/

namespace GlobalMetadata

/-! ### Terms -/

/-- A type with every id in it replaced by what the id stands for. -/
inductive TypeTerm
  /-- No value. -/
  | void
  /-- A type that its kind describes. -/
  | primitive (kind : TypeKind)
  /-- A type definition, or an instantiation of one. -/
  | class (definition : Nat) (classArgs methodArgs : List TypeTerm)
  /-- An array with a number of dimensions. -/
  | array (element : TypeTerm) (rank : Nat)
  /-- An unmanaged pointer. -/
  | pointer (element : TypeTerm)
  /-- A reference to a variable. -/
  | byref (element : TypeTerm)
  /-- An open generic parameter. -/
  | parameter (position : Nat) (ofMethod : Bool) (name : String)
  deriving Repr

namespace TypeTerm

/-- **Induction on terms.** A class may be assumed for all of its arguments. -/
@[elab_as_elim, induction_eliminator]
theorem induct {motive : TypeTerm → Prop} (void : motive .void)
    (primitive : ∀ kind, motive (.primitive kind))
    («class» : ∀ definition classArgs methodArgs, (∀ t ∈ classArgs, motive t) →
      (∀ t ∈ methodArgs, motive t) → motive (.class definition classArgs methodArgs))
    (array : ∀ element rank, motive element → motive (.array element rank))
    (pointer : ∀ element, motive element → motive (.pointer element))
    (byref : ∀ element, motive element → motive (.byref element))
    (parameter : ∀ position ofMethod name, motive (.parameter position ofMethod name))
    (t : TypeTerm) : motive t := by
  refine @TypeTerm.rec motive (fun ts => ∀ t ∈ ts, motive t)
    void primitive ?_ array pointer byref parameter ?_ ?_ t
  · exact fun definition classArgs methodArgs h_c h_m =>
      «class» definition classArgs methodArgs h_c h_m
  · exact fun t h => absurd h (List.not_mem_nil)
  · intro head tail h_head h_tail t h
    rcases List.mem_cons.mp h with rfl | h
    · exact h_head
    · exact h_tail t h

mutual

/-- Whether two terms are the same. -/
def decEq : (a b : TypeTerm) → Decidable (a = b)
  | .void, b => match b with
    | .void => isTrue rfl
    | .primitive _ | .class .. | .array .. | .pointer _ | .byref _ | .parameter .. => isFalse nofun
  | .primitive kind, b => match b with
    | .primitive kind' => decidable_of_iff (kind = kind') (by simp)
    | .void | .class .. | .array .. | .pointer _ | .byref _ | .parameter .. => isFalse nofun
  | .class definition classArgs methodArgs, b => match b with
    | .class definition' classArgs' methodArgs' =>
      have := decEqs classArgs classArgs'
      have := decEqs methodArgs methodArgs'
      decidable_of_iff
        (definition = definition' ∧ classArgs = classArgs' ∧ methodArgs = methodArgs') (by simp)
    | .void | .primitive _ | .array .. | .pointer _ | .byref _ | .parameter .. => isFalse nofun
  | .array element rank, b => match b with
    | .array element' rank' =>
      have := decEq element element'
      decidable_of_iff (element = element' ∧ rank = rank') (by simp)
    | .void | .primitive _ | .class .. | .pointer _ | .byref _ | .parameter .. => isFalse nofun
  | .pointer element, b => match b with
    | .pointer element' =>
      have := decEq element element'
      decidable_of_iff (element = element') (by simp)
    | .void | .primitive _ | .class .. | .array .. | .byref _ | .parameter .. => isFalse nofun
  | .byref element, b => match b with
    | .byref element' =>
      have := decEq element element'
      decidable_of_iff (element = element') (by simp)
    | .void | .primitive _ | .class .. | .array .. | .pointer _ | .parameter .. => isFalse nofun
  | .parameter position ofMethod name, b => match b with
    | .parameter position' ofMethod' name' =>
      decidable_of_iff (position = position' ∧ ofMethod = ofMethod' ∧ name = name') (by simp)
    | .void | .primitive _ | .class .. | .array .. | .pointer _ | .byref _ => isFalse nofun

/-- Whether two lists of terms are the same. -/
def decEqs : (as bs : List TypeTerm) → Decidable (as = bs)
  | [], [] => isTrue rfl
  | [], _ :: _ => isFalse nofun
  | _ :: _, [] => isFalse nofun
  | a :: as, b :: bs =>
    have := decEq a b
    have := decEqs as bs
    decidable_of_iff (a = b ∧ as = bs) (by simp)

end

instance : DecidableEq TypeTerm :=
  decEq

mutual

/-- How deeply generic arguments, arrays, pointers and references nest: 0 for a definition, and for
an instantiation one more than its deepest argument. -/
def depth : TypeTerm → Nat
  | .class _ [] [] => 0
  | .class _ classArgs methodArgs => max (depths classArgs) (depths methodArgs) + 1
  | .array element _ | .pointer element | .byref element => depth element + 1
  | .void | .primitive _ | .parameter .. => 0

/-- The depth of the deepest of several terms. -/
def depths : List TypeTerm → Nat
  | [] => 0
  | t :: ts => max (depth t) (depths ts)

end

theorem depths_le_iff {ts : List TypeTerm} {n : Nat} : depths ts ≤ n ↔ ∀ t ∈ ts, t.depth ≤ n := by
  induction ts with
  | nil => simp [depths]
  | cons t ts ih => rw [depths, Nat.max_le, ih, List.forall_mem_cons]

theorem depths_append (ts us : List TypeTerm) :
    depths (ts ++ us) = max (depths ts) (depths us) := by
  induction ts with
  | nil => simp [depths]
  | cons t ts ih => rw [List.cons_append, depths, depths, ih, Nat.max_assoc]

end TypeTerm

/-- What a class is, with every id in it replaced by what the id stands for. -/
@[ext]
structure KeyTerm where
  /-- The position of the type definition. -/
  definition : Nat
  /-- The arguments of the parameters of the type. -/
  classArgs : List TypeTerm
  /-- The arguments of the parameters of a method. -/
  methodArgs : List TypeTerm
  deriving DecidableEq, Repr

namespace KeyTerm

/-- A type definition without arguments. -/
def ofDefinition (definition : Nat) : KeyTerm :=
  ⟨definition, [], []⟩

/-- Whether there are any arguments. -/
def isInstantiation (key : KeyTerm) : Bool :=
  !key.classArgs.isEmpty || !key.methodArgs.isEmpty

/-- The type that a class is. -/
def type (key : KeyTerm) : TypeTerm :=
  .class key.definition key.classArgs key.methodArgs

/-- How deeply generic arguments nest. -/
def depth (key : KeyTerm) : Nat :=
  key.type.depth

theorem eq_ofDefinition {key : KeyTerm} (h : key.isInstantiation = false) :
    key = .ofDefinition key.definition := by
  obtain ⟨definition, classArgs, methodArgs⟩ := key
  simp only [isInstantiation, Bool.or_eq_false_iff, Bool.not_eq_false', List.isEmpty_iff] at h
  rw [h.1, h.2]
  rfl

theorem depth_eq_zero {key : KeyTerm} (h : key.isInstantiation = false) : key.depth = 0 := by
  rw [eq_ofDefinition h]
  rfl

theorem depth_eq {key : KeyTerm} (h : key.isInstantiation = true) :
    key.depth = TypeTerm.depths (key.classArgs ++ key.methodArgs) + 1 := by
  obtain ⟨definition, classArgs, methodArgs⟩ := key
  rw [TypeTerm.depths_append]
  cases classArgs with
  | cons a as => rfl
  | nil =>
    cases methodArgs with
    | cons a as => rfl
    | nil => cases h

theorem type_inj {a b : KeyTerm} : a.type = b.type ↔ a = b := by
  cases a
  cases b
  simp [type]

end KeyTerm

/-! ### The terms of an arena -/

namespace Arena

mutual

/-- An id stands for a term. -/
def Unfolds (arena : Arena) : TypeTerm → TypeId → Prop
  | .void, id => arena.type? id = some .void
  | .primitive kind, id => arena.type? id = some (.primitive kind)
  | .class definition classArgs methodArgs, id =>
    ∃ owner c, arena.type? id = some (.class owner) ∧ arena.class? owner = some c ∧
      c.definition = definition ∧ UnfoldsAll arena classArgs c.key.classArgs ∧
      UnfoldsAll arena methodArgs c.key.methodArgs
  | .array element rank, id =>
    ∃ part, arena.type? id = some (.array part rank) ∧ Unfolds arena element part
  | .pointer element, id =>
    ∃ part, arena.type? id = some (.pointer part) ∧ Unfolds arena element part
  | .byref element, id =>
    ∃ part, arena.type? id = some (.byref part) ∧ Unfolds arena element part
  | .parameter position ofMethod name, id =>
    arena.type? id = some (.parameter position ofMethod name)

/-- Several ids stand for as many terms, one each. -/
def UnfoldsAll (arena : Arena) : List TypeTerm → List TypeId → Prop
  | [], ids => ids = []
  | t :: ts, ids => ∃ id rest, ids = id :: rest ∧ Unfolds arena t id ∧ UnfoldsAll arena ts rest

end

/-- A key stands for a key of terms. -/
def UnfoldsKey (arena : Arena) (k : KeyTerm) (key : ClassKey) : Prop :=
  key.definition = k.definition ∧ arena.UnfoldsAll k.classArgs key.classArgs ∧
    arena.UnfoldsAll k.methodArgs key.methodArgs

section Meaning

variable {arena arena' : Arena}

theorem unfoldsAll_iff {ts : List TypeTerm} {ids : List TypeId} :
    arena.UnfoldsAll ts ids ↔ List.Forall₂ arena.Unfolds ts ids := by
  induction ts generalizing ids with
  | nil => rw [UnfoldsAll, List.forall₂_nil_left_iff]
  | cons t ts ih =>
    rw [UnfoldsAll, List.forall₂_cons_left_iff]
    constructor
    · rintro ⟨id, rest, rfl, h, h_rest⟩
      exact ⟨id, rest, h, ih.mp h_rest, rfl⟩
    · rintro ⟨id, rest, h, h_rest, rfl⟩
      exact ⟨id, rest, rfl, h, ih.mpr h_rest⟩

theorem UnfoldsAll.nil : arena.UnfoldsAll [] [] :=
  rfl

theorem UnfoldsAll.cons {t : TypeTerm} {ts : List TypeTerm} {id : TypeId} {ids : List TypeId}
    (h : arena.Unfolds t id) (h_rest : arena.UnfoldsAll ts ids) :
    arena.UnfoldsAll (t :: ts) (id :: ids) :=
  ⟨id, ids, rfl, h, h_rest⟩

theorem UnfoldsAll.append {ts us : List TypeTerm} {ids ids' : List TypeId}
    (h : arena.UnfoldsAll ts ids) (h' : arena.UnfoldsAll us ids') :
    arena.UnfoldsAll (ts ++ us) (ids ++ ids') :=
  unfoldsAll_iff.mpr (List.rel_append (unfoldsAll_iff.mp h) (unfoldsAll_iff.mp h'))

theorem UnfoldsAll.isEmpty_eq {ts : List TypeTerm} {ids : List TypeId}
    (h : arena.UnfoldsAll ts ids) : ids.isEmpty = ts.isEmpty := by
  cases ts with
  | nil =>
    subst h
    rfl
  | cons t ts =>
    obtain ⟨id, rest, rfl, -⟩ := h
    rfl

theorem UnfoldsKey.isInstantiation_eq {k : KeyTerm} {key : ClassKey}
    (h : arena.UnfoldsKey k key) : key.isInstantiation = k.isInstantiation := by
  rw [ClassKey.isInstantiation, KeyTerm.isInstantiation, h.2.1.isEmpty_eq, h.2.2.isEmpty_eq]

/-- What holds of each term and its id holds of all of them. -/
theorem UnfoldsAll.imp {ts : List TypeTerm} {ids : List TypeId} (h : arena.UnfoldsAll ts ids)
    (h_each : ∀ t ∈ ts, ∀ id, arena.Unfolds t id → arena'.Unfolds t id) :
    arena'.UnfoldsAll ts ids := by
  induction ts generalizing ids with
  | nil => exact h
  | cons t ts ih =>
    obtain ⟨id, rest, rfl, h, h_rest⟩ := h
    refine .cons (h_each t List.mem_cons_self id h) (ih h_rest fun u h_u => ?_)
    exact h_each u (List.mem_cons_of_mem t h_u)

/-- Each of several terms has its id. -/
theorem UnfoldsAll.exists_id {ts : List TypeTerm} {ids : List TypeId} (h : arena.UnfoldsAll ts ids)
    {t : TypeTerm} (h_t : t ∈ ts) : ∃ id, id ∈ ids ∧ arena.Unfolds t id := by
  induction ts generalizing ids with
  | nil => cases h_t
  | cons u ts ih =>
    obtain ⟨id, rest, rfl, h_u, h_rest⟩ := h
    rcases List.mem_cons.mp h_t with rfl | h_t
    · exact ⟨id, List.mem_cons_self, h_u⟩
    · obtain ⟨id', h_mem, h_id'⟩ := ih h_rest h_t
      exact ⟨id', List.mem_cons_of_mem id h_mem, h_id'⟩

/-- **Growth.** An id keeps its term. -/
theorem Unfolds.mono (h_le : arena ≤ arena') {t : TypeTerm} {id : TypeId}
    (h : arena.Unfolds t id) : arena'.Unfolds t id := by
  induction t generalizing id with
  | void | primitive | parameter => exact type?_mono h_le h
  | «class» definition classArgs methodArgs ih_c ih_m =>
    obtain ⟨owner, c, h_id, h_c, h_definition, h_class, h_method⟩ := h
    -- the class keeps its key
    obtain ⟨c', h_c', h_grows⟩ := class?_mono h_le h_c
    refine ⟨owner, c', type?_mono h_le h_id, h_c', ?_, ?_, ?_⟩
    · rw [ResolvedClass.definition, h_grows.key_eq]
      exact h_definition
    · rw [h_grows.key_eq]
      exact h_class.imp fun t h_t _ => ih_c t h_t
    · rw [h_grows.key_eq]
      exact h_method.imp fun t h_t _ => ih_m t h_t
  | array element rank ih =>
    obtain ⟨part, h_id, h_part⟩ := h
    exact ⟨part, type?_mono h_le h_id, ih h_part⟩
  | pointer element ih | byref element ih =>
    obtain ⟨part, h_id, h_part⟩ := h
    exact ⟨part, type?_mono h_le h_id, ih h_part⟩

theorem UnfoldsAll.mono (h_le : arena ≤ arena') {ts : List TypeTerm} {ids : List TypeId}
    (h : arena.UnfoldsAll ts ids) : arena'.UnfoldsAll ts ids :=
  h.imp fun _ _ _ => Unfolds.mono h_le

theorem UnfoldsKey.mono (h_le : arena ≤ arena') {k : KeyTerm} {key : ClassKey}
    (h : arena.UnfoldsKey k key) : arena'.UnfoldsKey k key :=
  ⟨h.1, h.2.1.mono h_le, h.2.2.mono h_le⟩

end Meaning

/-- A type stands for a term. -/
def Spells (arena : Arena) : ResolvedType → TypeTerm → Prop
  | .void, .void => True
  | .primitive kind, .primitive kind' => kind = kind'
  | .class owner, .class definition classArgs methodArgs =>
    ∃ c, arena.class? owner = some c ∧ arena.UnfoldsKey ⟨definition, classArgs, methodArgs⟩ c.key
  | .array part rank, .array element rank' => rank = rank' ∧ arena.Unfolds element part
  | .pointer part, .pointer element => arena.Unfolds element part
  | .byref part, .byref element => arena.Unfolds element part
  | .parameter position ofMethod name, .parameter position' ofMethod' name' =>
    position = position' ∧ ofMethod = ofMethod' ∧ name = name'
  | _, _ => False

section Uniqueness

variable {arena : Arena}

theorem Spells.mono {arena' : Arena} (h_le : arena ≤ arena') {type : ResolvedType} {t : TypeTerm}
    (h : arena.Spells type t) : arena'.Spells type t := by
  cases type <;> cases t <;> simp only [Spells] at h ⊢
  · exact h
  · obtain ⟨c, h_c, h_key⟩ := h
    obtain ⟨c', h_c', h_grows⟩ := class?_mono h_le h_c
    refine ⟨c', h_c', ?_⟩
    rw [h_grows.key_eq]
    exact h_key.mono h_le
  · exact ⟨h.1, h.2.mono h_le⟩
  · exact h.mono h_le
  · exact h.mono h_le
  · exact h

/-- An id stands for a term exactly if its type does. -/
theorem unfolds_iff {t : TypeTerm} {id : TypeId} :
    arena.Unfolds t id ↔ ∃ type, arena.type? id = some type ∧ arena.Spells type t := by
  constructor
  · intro h
    -- the term tells the shape of the type
    cases t with
    | void => exact ⟨_, h, trivial⟩
    | primitive kind => exact ⟨_, h, rfl⟩
    | «class» definition classArgs methodArgs =>
      obtain ⟨owner, c, h_id, h_c, h_key⟩ := h
      exact ⟨_, h_id, c, h_c, h_key⟩
    | array element rank =>
      obtain ⟨part, h_id, h_part⟩ := h
      exact ⟨_, h_id, rfl, h_part⟩
    | pointer element =>
      obtain ⟨part, h_id, h_part⟩ := h
      exact ⟨_, h_id, h_part⟩
    | byref element =>
      obtain ⟨part, h_id, h_part⟩ := h
      exact ⟨_, h_id, h_part⟩
    | parameter position ofMethod name => exact ⟨_, h, rfl, rfl, rfl⟩
  · rintro ⟨type, h_id, h⟩
    -- only the two of one shape go together
    cases type <;> cases t <;> simp only [Spells] at h
    · exact h_id
    · subst h
      exact h_id
    · obtain ⟨c, h_c, h_key⟩ := h
      exact ⟨_, c, h_id, h_c, h_key⟩
    · obtain ⟨rfl, h_part⟩ := h
      exact ⟨_, h_id, h_part⟩
    · exact ⟨_, h_id, h⟩
    · exact ⟨_, h_id, h⟩
    · obtain ⟨rfl, rfl, rfl⟩ := h
      exact h_id

theorem unfolds_of_type? {t : TypeTerm} {id : TypeId} {type : ResolvedType}
    (h_id : arena.type? id = some type) : arena.Unfolds t id ↔ arena.Spells type t := by
  rw [unfolds_iff]
  constructor
  · rintro ⟨type', h_id', h⟩
    rw [h_id] at h_id'
    rwa [Option.some.inj h_id']
  · exact fun h => ⟨type, h_id, h⟩

theorem Unfolds.hasType {t : TypeTerm} {id : TypeId} (h : arena.Unfolds t id) :
    arena.HasType id := by
  obtain ⟨type, h_id, -⟩ := unfolds_iff.mp h
  exact Catalog.lt_size_of_get? h_id

theorem UnfoldsAll.hasType {ts : List TypeTerm} {ids : List TypeId} (h : arena.UnfoldsAll ts ids) :
    ∀ id ∈ ids, arena.HasType id := by
  induction ts generalizing ids with
  | nil =>
    subst h
    exact fun id h_id => absurd h_id List.not_mem_nil
  | cons t ts ih =>
    obtain ⟨id, rest, rfl, h_t, h_ts⟩ := h
    intro id' h_id'
    rcases List.mem_cons.mp h_id' with rfl | h_id'
    · exact h_t.hasType
    · exact ih h_ts id' h_id'

/-- If no term of several can be exchanged, then neither can all of them. -/
theorem UnfoldsAll.unique_of {ts us : List TypeTerm} {ids : List TypeId}
    (h : arena.UnfoldsAll ts ids) (h' : arena.UnfoldsAll us ids)
    (h_each : ∀ t ∈ ts, ∀ u id, arena.Unfolds t id → arena.Unfolds u id → t = u) : ts = us := by
  induction ts generalizing us ids with
  | nil =>
    subst h
    cases us with
    | nil => rfl
    | cons u us =>
      obtain ⟨id, rest, h_ids, -⟩ := h'
      cases h_ids
  | cons t ts ih =>
    obtain ⟨id, rest, rfl, h_t, h_ts⟩ := h
    cases us with
    | nil => cases h'
    | cons u us =>
      obtain ⟨id', rest', h_ids, h_u, h_us⟩ := h'
      obtain ⟨rfl, rfl⟩ := List.cons.inj h_ids
      rw [h_each t List.mem_cons_self u id h_t h_u,
        ih h_ts h_us fun v h_v => h_each v (List.mem_cons_of_mem t h_v)]

/-- **One term.** An id stands for at most one term. -/
theorem Unfolds.unique {t u : TypeTerm} {id : TypeId} (h : arena.Unfolds t id)
    (h' : arena.Unfolds u id) : t = u := by
  induction t generalizing u id with
  | void =>
    rw [unfolds_of_type? h] at h'
    cases u with
    | void => rfl
    | _ => exact h'.elim
  | primitive kind =>
    rw [unfolds_of_type? h] at h'
    cases u with
    | primitive kind' => exact congrArg _ h'
    | _ => exact h'.elim
  | «class» definition classArgs methodArgs ih_c ih_m =>
    -- one class has one key, whose arguments stand for one term each
    obtain ⟨owner, c, h_id, h_c, h_definition, h_class, h_method⟩ := h
    rw [unfolds_of_type? h_id] at h'
    cases u with
    | «class» definition' classArgs' methodArgs' =>
      obtain ⟨c', h_c', h_definition', h_class', h_method'⟩ := h'
      obtain rfl := Option.some.inj (h_c.symm.trans h_c')
      have h_same : definition = definition' := h_definition.symm.trans h_definition'
      rw [h_same, h_class.unique_of h_class' fun t h_t _ _ => ih_c t h_t,
        h_method.unique_of h_method' fun t h_t _ _ => ih_m t h_t]
    | _ => exact h'.elim
  | array element rank ih =>
    obtain ⟨part, h_id, h_part⟩ := h
    rw [unfolds_of_type? h_id] at h'
    cases u with
    | array element' rank' => rw [h'.1, ih h_part h'.2]
    | _ => exact h'.elim
  | pointer element ih =>
    obtain ⟨part, h_id, h_part⟩ := h
    rw [unfolds_of_type? h_id] at h'
    cases u with
    | pointer element' => rw [ih h_part h']
    | _ => exact h'.elim
  | byref element ih =>
    obtain ⟨part, h_id, h_part⟩ := h
    rw [unfolds_of_type? h_id] at h'
    cases u with
    | byref element' => rw [ih h_part h']
    | _ => exact h'.elim
  | parameter position ofMethod name =>
    rw [unfolds_of_type? h] at h'
    cases u with
    | parameter position' ofMethod' name' =>
      obtain ⟨rfl, rfl, rfl⟩ := h'
      rfl
    | _ => exact h'.elim

theorem UnfoldsAll.unique {ts us : List TypeTerm} {ids : List TypeId}
    (h : arena.UnfoldsAll ts ids) (h' : arena.UnfoldsAll us ids) : ts = us :=
  h.unique_of h' fun _ _ _ _ => Unfolds.unique

theorem UnfoldsKey.unique {k l : KeyTerm} {key : ClassKey} (h : arena.UnfoldsKey k key)
    (h' : arena.UnfoldsKey l key) : k = l := by
  obtain ⟨h_definition, h_class, h_method⟩ := h
  obtain ⟨h_definition', h_class', h_method'⟩ := h'
  exact KeyTerm.ext (h_definition.symm.trans h_definition') (h_class.unique h_class')
    (h_method.unique h_method')

/-- If no id of several can be exchanged, then neither can all of them. -/
theorem UnfoldsAll.inj_of {ts : List TypeTerm} {ids ids' : List TypeId}
    (h : arena.UnfoldsAll ts ids) (h' : arena.UnfoldsAll ts ids')
    (h_each : ∀ t ∈ ts, ∀ id id', arena.Unfolds t id → arena.Unfolds t id' → id = id') :
    ids = ids' := by
  induction ts generalizing ids ids' with
  | nil =>
    rw [UnfoldsAll] at h h'
    rw [h, h']
  | cons t ts ih =>
    obtain ⟨id, rest, rfl, h_t, h_ts⟩ := h
    obtain ⟨id', rest', rfl, h_t', h_ts'⟩ := h'
    rw [h_each t List.mem_cons_self id id' h_t h_t',
      ih h_ts h_ts' fun u h_u => h_each u (List.mem_cons_of_mem t h_u)]

/-- **One id.** A term is stood for by at most one id. -/
theorem Unfolds.inj {t : TypeTerm} {id id' : TypeId} (h : arena.Unfolds t id)
    (h' : arena.Unfolds t id') : id = id' := by
  induction t generalizing id id' with
  | void | primitive | parameter => exact eq_of_type? h h'
  | «class» definition classArgs methodArgs ih_c ih_m =>
    obtain ⟨owner, c, h_id, h_c, h_definition, h_class, h_method⟩ := h
    obtain ⟨owner', c', h_id', h_c', h_definition', h_class', h_method'⟩ := h'
    -- the parts agree, so the keys do, so the classes do
    have h_key : c.key = c'.key := by
      have h_classArgs := h_class.inj_of h_class' fun t h_t _ _ => ih_c t h_t
      have h_methodArgs := h_method.inj_of h_method' fun t h_t _ _ => ih_m t h_t
      exact ClassKey.ext (h_definition.trans h_definition'.symm) h_classArgs h_methodArgs
    obtain rfl := eq_of_key h_c h_c' h_key
    exact eq_of_type? h_id h_id'
  | array element rank ih =>
    obtain ⟨part, h_id, h_part⟩ := h
    obtain ⟨part', h_id', h_part'⟩ := h'
    obtain rfl := ih h_part h_part'
    exact eq_of_type? h_id h_id'
  | pointer element ih | byref element ih =>
    obtain ⟨part, h_id, h_part⟩ := h
    obtain ⟨part', h_id', h_part'⟩ := h'
    obtain rfl := ih h_part h_part'
    exact eq_of_type? h_id h_id'

theorem UnfoldsAll.inj {ts : List TypeTerm} {ids ids' : List TypeId}
    (h : arena.UnfoldsAll ts ids) (h' : arena.UnfoldsAll ts ids') : ids = ids' :=
  h.inj_of h' fun _ _ _ _ => Unfolds.inj

theorem UnfoldsKey.inj {k : KeyTerm} {key key' : ClassKey} (h : arena.UnfoldsKey k key)
    (h' : arena.UnfoldsKey k key') : key = key' := by
  obtain ⟨h_definition, h_class, h_method⟩ := h
  obtain ⟨h_definition', h_class', h_method'⟩ := h'
  exact ClassKey.ext (h_definition.trans h_definition'.symm) (h_class.inj h_class')
    (h_method.inj h_method')

end Uniqueness

/-! ### Computing the term of an id -/

/-- The term of an id, following at most `fuel` types into each other. -/
def termWithin (arena : Arena) : Nat → TypeId → Option TypeTerm
  | 0, _ => none
  | fuel + 1, id => do
    match ← arena.type? id with
    | .void => return .void
    | .primitive kind => return .primitive kind
    | .class owner =>
      let c ← arena.class? owner
      let classArgs ← c.key.classArgs.mapM (termWithin arena fuel)
      let methodArgs ← c.key.methodArgs.mapM (termWithin arena fuel)
      return .class c.definition classArgs methodArgs
    | .array element rank => return .array (← termWithin arena fuel element) rank
    | .pointer element => return .pointer (← termWithin arena fuel element)
    | .byref element => return .byref (← termWithin arena fuel element)
    | .parameter position ofMethod name => return .parameter position ofMethod name

/-- **Unfolding.** The term of an id. Parts come before the types made of them, so that no path
through the parts of a type is longer than the table. -/
def term? (arena : Arena) (id : TypeId) : Option TypeTerm :=
  arena.termWithin arena.types.size id

/-- What an arena spells out is what ids stand for. -/
theorem unfoldsAll_of_mapM {arena : Arena} {spell : TypeId → Option TypeTerm}
    (h_spell : ∀ id t, spell id = some t → arena.Unfolds t id) {ids : List TypeId}
    {ts : List TypeTerm} (h : ids.mapM spell = some ts) : arena.UnfoldsAll ts ids := by
  induction ids generalizing ts with
  | nil =>
    cases h
    exact .nil
  | cons id ids ih =>
    rw [List.mapM_cons] at h
    simp only [Option.bind_eq_bind, Option.bind_eq_some_iff, Option.pure_def,
      Option.some.injEq] at h
    obtain ⟨t, h_t, ts, h_ts, rfl⟩ := h
    exact .cons (h_spell id t h_t) (ih h_ts)

/-- What is computed for every id is computed for the terms that they stand for. -/
theorem mapM_of_unfoldsAll {γ : Type} {arena : Arena} {compute : TypeId → Option γ}
    {ids : List TypeId} {ts : List TypeTerm} (h : arena.UnfoldsAll ts ids) (value : TypeTerm → γ)
    (h_value : ∀ t id, id ∈ ids → arena.Unfolds t id → compute id = some (value t)) :
    ids.mapM compute = some (ts.map value) := by
  induction ts generalizing ids with
  | nil =>
    subst h
    rfl
  | cons t ts ih =>
    obtain ⟨id, rest, rfl, h_t, h_ts⟩ := h
    have h_rest := ih h_ts fun u id' h_id' => h_value u id' (List.mem_cons_of_mem id h_id')
    rw [List.mapM_cons, h_value t id List.mem_cons_self h_t, h_rest]
    rfl

theorem unfolds_of_termWithin {arena : Arena} {fuel : Nat} {id : TypeId} {t : TypeTerm}
    (h : arena.termWithin fuel id = some t) : arena.Unfolds t id := by
  induction fuel generalizing id t with
  | zero => cases h
  | succ fuel ih =>
    -- what the arguments unfold to, for the lists of them
    have ih' (id : TypeId) (t : TypeTerm) (h : arena.termWithin fuel id = some t) := ih h
    cases h_id : arena.type? id with
    | none => simp [termWithin, h_id] at h
    | some type =>
      rw [unfolds_of_type? h_id]
      cases type <;>
        simp only [termWithin, h_id, Option.bind_eq_bind, Option.bind_some, Option.pure_def,
          Option.some.injEq, Option.bind_eq_some_iff] at h
      case «class» owner =>
        obtain ⟨c, h_c, classArgs, h_class, methodArgs, h_method, rfl⟩ := h
        exact ⟨c, h_c, rfl, unfoldsAll_of_mapM ih' h_class, unfoldsAll_of_mapM ih' h_method⟩
      case array element rank =>
        obtain ⟨part, h_part, rfl⟩ := h
        exact ⟨rfl, ih h_part⟩
      case pointer element =>
        obtain ⟨part, h_part, rfl⟩ := h
        exact ih h_part
      case byref element =>
        obtain ⟨part, h_part, rfl⟩ := h
        exact ih h_part
      case parameter position ofMethod name =>
        subst h
        exact ⟨rfl, rfl, rfl⟩
      all_goals
        subst h
        trivial

/-! ### Keys that have a class -/

/-- There is a class for a key of terms. -/
def Holds (arena : Arena) (k : KeyTerm) : Prop :=
  ∃ id c, arena.class? id = some c ∧ arena.UnfoldsKey k c.key

section Holds

variable {arena arena' : Arena}

theorem Holds.mono (h_le : arena ≤ arena') {k : KeyTerm} (h : arena.Holds k) :
    arena'.Holds k := by
  obtain ⟨id, c, h_c, h_key⟩ := h
  obtain ⟨c', h_c', h_grows⟩ := class?_mono h_le h_c
  refine ⟨id, c', h_c', ?_⟩
  rw [h_grows.key_eq]
  exact h_key.mono h_le

theorem unfoldsKey_ofDefinition {k : KeyTerm} {definition : Nat} :
    arena.UnfoldsKey k (.ofDefinition definition) ↔ k = .ofDefinition definition := by
  constructor
  · intro h
    exact h.unique ⟨rfl, .nil, .nil⟩
  · rintro rfl
    exact ⟨rfl, .nil, .nil⟩

theorem holds_of_find? {key : ClassKey} {id : ClassId} {k : KeyTerm}
    (h : arena.find? key = some id) (h_key : arena.UnfoldsKey k key) : arena.Holds k := by
  obtain ⟨c, h_c, rfl⟩ := find?_eq_some_iff.mp h
  exact ⟨id, c, h_c, h_key⟩

end Holds

end Arena
end GlobalMetadata
