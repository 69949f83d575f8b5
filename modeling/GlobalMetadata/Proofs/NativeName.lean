import GlobalMetadata.Proofs.Path
import GlobalMetadata.Proofs.Storage

/-!
# Native names are identifiers with stars behind them

Native code that is written from a graph names the type of every value. Whatever the names in the
metadata are made of, what is written is one identifier and any number of stars
(`Name.IsStarred`): the names of classes are only written as identifiers made of them, and the
rest of a text is fixed.

* `Arena.isIdentifier_elementName`: the element of an array is named by an identifier;
* `Arena.isStarred_of_spelled`: the induction on the references that a spelling follows;
* `CellState.native_well_formed`: every type in every state in which no enumeration leads back to
  itself.
-/

namespace GlobalMetadata

open Relation

namespace Name

/-! ### Identifiers and stars -/

variable {identifier identifier' word : List Char} {text : String} {stars stars' : Nat}

theorem isIdentifier_cons_iff {c : Char} : IsIdentifier (c :: word) ↔
    ((c.isAlpha || c == '_') && word.all isWordChar) = true := by
  simp only [Bool.and_eq_true, Bool.or_eq_true, beq_iff_eq, List.all_eq_true, isWordChar_iff]
  constructor
  · rintro ⟨_, _, h_text, h⟩
    cases h_text
    exact h
  · exact fun h => ⟨c, word, rfl, h⟩

instance : DecidablePred IsIdentifier
  | [] => isFalse fun ⟨_, _, h, _⟩ => List.cons_ne_nil _ _ h.symm
  | _ :: _ => decidable_of_iff _ isIdentifier_cons_iff.symm

/-- A text is an identifier with so many stars behind it. -/
def IsStarred (text : String) (identifier : List Char) (stars : Nat) : Prop :=
  IsIdentifier identifier ∧ text.toList = identifier ++ List.replicate stars '*'

instance : Decidable (IsStarred text identifier stars) :=
  inferInstanceAs (Decidable (_ ∧ _))

/-- Words may be added to an identifier. -/
theorem IsIdentifier.append (h : IsIdentifier identifier) (h_word : word.all isWordChar = true) :
    IsIdentifier (identifier ++ word) := by
  obtain ⟨c, rest, rfl, h_c, h_rest⟩ := h
  refine ⟨c, rest ++ word, rfl, h_c, fun c' h_c' => ?_⟩
  refine (List.mem_append.mp h_c').elim (h_rest c') fun h_added => ?_
  exact isWordChar_iff.mp (List.all_eq_true.mp h_word c' h_added)

theorem IsIdentifier.star_not_mem (h : IsIdentifier identifier) : '*' ∉ identifier :=
  fun h_star => absurd (h.word '*' h_star) (by decide)

/-- No identifier has a star in it, so that the stars of a text can be counted. -/
theorem IsStarred.count_eq (h : IsStarred text identifier stars) :
    text.toList.count '*' = stars := by
  rw [h.2, List.count_append, List.count_eq_zero_of_not_mem h.1.star_not_mem,
    List.count_replicate_self, Nat.zero_add]

/-- A text is an identifier with stars in at most one way. -/
theorem IsStarred.unique (h : IsStarred text identifier stars)
    (h' : IsStarred text identifier' stars') : identifier = identifier' ∧ stars = stars' := by
  have h_stars : stars = stars' := h.count_eq.symm.trans h'.count_eq
  subst h_stars
  exact ⟨List.append_cancel_right (h.2.symm.trans h'.2), rfl⟩

theorem IsIdentifier.isStarred (h : IsIdentifier text.toList) :
    IsStarred text text.toList 0 :=
  ⟨h, (List.append_nil _).symm⟩

/-- A pointer has one more star. -/
theorem IsStarred.pointerTo (h : IsStarred text identifier stars) :
    IsStarred (Arena.pointerTo text) identifier (stars + 1) := by
  refine ⟨h.1, ?_⟩
  rw [Arena.pointerTo, String.toList_append, h.2, List.append_assoc,
    ← List.replicate_append_replicate]
  rfl

end Name

/-! ### Types that their kinds describe -/

namespace TypeKind

theorem isIdentifier_elementName (kind : TypeKind) : Name.IsIdentifier kind.elementName.toList := by
  cases kind <;> decide

theorem exists_isStarred_nativeName (kind : TypeKind) :
    ∃ identifier stars, Name.IsStarred kind.nativeName identifier stars := by
  refine ⟨kind.nativeName.toList.takeWhile (· ≠ '*'), kind.nativeName.toList.count '*', ?_⟩
  cases kind <;> decide

end TypeKind

/-! ### Types and classes -/

namespace Arena

variable {m : Metadata} {arena : Arena} {node : Node} {fuel : Nat}

theorem isIdentifier_objectStructure : Name.IsIdentifier objectStructure.toList := by decide

theorem isIdentifier_array {element : String} (h : Name.IsIdentifier element.toList) :
    Name.IsIdentifier (element ++ "_array").toList := by
  rw [String.toList_append]
  exact h.append (by decide)

/-- The element of an array is named by an identifier, however deep its own elements are. -/
theorem isIdentifier_of_elementNameWithin {id : TypeId} {text : String}
    (h : arena.elementNameWithin fuel id = some text) : Name.IsIdentifier text.toList := by
  induction fuel generalizing id text with
  | zero => cases h
  | succ fuel ih =>
    rw [elementNameWithin] at h
    split at h
    next kind _ =>
      cases h
      exact kind.isIdentifier_elementName
    next owner _ =>
      cases h
      exact Name.isIdentifier_sanitize _
    next element _ _ =>
      obtain ⟨name, h_name, rfl⟩ := Option.map_eq_some_iff.mp h
      exact isIdentifier_array (ih h_name)
    next =>
      cases h
      exact isIdentifier_objectStructure

theorem isIdentifier_elementName (arena : Arena) (id : TypeId) :
    Name.IsIdentifier (arena.elementName id).toList := by
  unfold elementName
  cases h : arena.elementNameWithin arena.spellingBound id with
  | none => exact isIdentifier_objectStructure
  | some text => exact isIdentifier_of_elementNameWithin h

/-- The identifier of the structure behind a class that is no enumeration. -/
def structureIdentifier (arena : Arena) (owner : ClassId) : String :=
  arena.classIdentifier owner ++ "_o"

/-- The identifier of the arrays of a type. -/
def arrayIdentifier (arena : Arena) (element : TypeId) : String :=
  arena.elementName element ++ "_array"

theorem isStarred_structureName (owner : ClassId) (c : ResolvedClass) :
    Name.IsStarred (arena.structureName owner c) (arena.structureIdentifier owner).toList
      (if c.isValueType then 0 else 1) := by
  have h_identifier : Name.IsIdentifier (arena.structureIdentifier owner).toList := by
    rw [structureIdentifier, String.toList_append]
    exact (Name.isIdentifier_sanitize _).append (by decide)
  unfold structureName
  cases c.isValueType with
  | true => exact h_identifier.isStarred
  | false => exact h_identifier.isStarred.pointerTo

theorem isStarred_array (element : TypeId) :
    Name.IsStarred (pointerTo (arena.arrayIdentifier element))
      (arena.arrayIdentifier element).toList 1 :=
  (isIdentifier_array (arena.isIdentifier_elementName element)).isStarred.pointerTo

/-- **What is spelled.** Whatever a spelling follows, it ends at an identifier, and each pointer or
reference on the way adds a star. -/
theorem isStarred_of_spelled {text : String} (h : arena.spellingWithin fuel node = some text) :
    ∃ identifier stars, Name.IsStarred text identifier stars := by
  have h_object : Name.IsStarred (pointerTo objectStructure) objectStructure.toList 1 :=
    isIdentifier_objectStructure.isStarred.pointerTo
  induction fuel generalizing node text with
  | zero =>
    rw [spellingWithin_zero] at h
    cases h
  | succ fuel ih =>
    have h_type {id : TypeId} {text : String} (h : arena.nativeWithin fuel id = some text) :
        ∃ identifier stars, Name.IsStarred text identifier stars := @ih (.type id) text h
    have h_class {id : ClassId} {text : String} (h : arena.classNativeWithin fuel id = some text) :
        ∃ identifier stars, Name.IsStarred text identifier stars := @ih (.class id) text h
    cases node with
    | type id =>
      rw [spellingWithin, nativeWithin] at h
      cases h_id : arena.type? id with
      | none =>
        rw [h_id] at h
        cases h
        exact ⟨"void".toList, 1, by decide⟩
      | some type =>
        rw [h_id] at h
        cases type with
        | void =>
          cases h
          exact ⟨"void".toList, 0, by decide⟩
        | primitive kind =>
          cases h
          exact kind.exists_isStarred_nativeName
        | «class» owner => exact h_class h
        | array element =>
          cases h
          exact ⟨_, _, isStarred_array element⟩
        | pointer element | byref element =>
          obtain ⟨name, h_name, rfl⟩ := Option.map_eq_some_iff.mp h
          obtain ⟨identifier, stars, h_starred⟩ := h_type h_name
          exact ⟨identifier, stars + 1, h_starred.pointerTo⟩
        | parameter =>
          cases h
          exact ⟨_, _, h_object⟩
    | «class» id =>
      rw [spellingWithin, classNativeWithin] at h
      cases h_c : arena.class? id with
      | none =>
        rw [h_c] at h
        cases h
        exact ⟨_, _, h_object⟩
      | some c =>
        rw [h_c] at h
        dsimp only at h
        split at h
        · -- an enumeration is spelled like its underlying type
          cases h_underlying : c.underlying with
          | none =>
            rw [h_underlying] at h
            cases h
            exact TypeKind.i4.exists_isStarred_nativeName
          | some underlying =>
            rw [h_underlying] at h
            exact h_type h
        · cases h
          exact ⟨_, _, isStarred_structureName id c⟩

/-! ### The result -/

/-- A text is the native name of a type, and it is well formed. -/
structure WellNamed (arena : Arena) (id : TypeId) (name : String) : Prop where
  /-- The name is found by following no more references than the bound allows for. -/
  spelled : ∀ fuel, arena.spellingBound ≤ fuel → arena.nativeWithin fuel id = some name
  /-- So are the names of classes that it is made of. -/
  displayed : ∀ fuel, arena.spellingBound ≤ fuel → ∀ owner,
    arena.classFullDisplayWithin fuel owner = some (arena.classFullDisplay owner)
  /-- And so are the names of elements of arrays. -/
  elements : ∀ fuel, arena.spellingBound ≤ fuel → ∀ element,
    arena.elementNameWithin fuel element = some (arena.elementName element)
  /-- It is an identifier with stars behind it, in one way only. -/
  form : ∃! form : List Char × Nat, Name.IsStarred name form.1 form.2
  /-- A class that is no enumeration is a structure, or a pointer to one unless it is a value
  type. -/
  ofClass : ∀ owner, arena.type? id = some (.class owner) →
    ∃ c, arena.class? owner = some c ∧ (c.isEnum = false → Name.IsStarred name
      ((Name.sanitize (arena.classFullDisplay owner)).toList ++ ['_', 'o'])
      (if c.isValueType then 0 else 1))
  /-- An array is a pointer to the arrays of its elements. -/
  ofArray : ∀ element rank, arena.type? id = some (.array element rank) →
    Name.IsStarred name ((arena.elementName element).toList ++ ['_', 'a', 'r', 'r', 'a', 'y']) 1

variable {id : TypeId}

/-- What a class is exists. -/
theorem Sound.exists_class (h : arena.Sound m) {owner : ClassId}
    (h_id : arena.type? id = some (.class owner)) : ∃ c, arena.class? owner = some c := by
  obtain ⟨time, h_time⟩ := h.timed
  obtain ⟨h_has, -⟩ := h_time.earlier _ _ (refs?_type h_id) (.class owner) List.mem_cons_self
  exact hasClass_iff.mp (has_class_iff.mp h_has)

/-- In a sound arena every type that leads into no circle has a native name that is well formed. -/
theorem Sound.wellNamed (h : arena.Sound m) (h_free : ¬ arena.Circular (.type id)) :
    ∃ name, arena.native id = some name ∧ arena.WellNamed id name := by
  obtain ⟨name, h_name⟩ := exists_spelling h_free
  have h_spelled (fuel : Nat) (h_fuel : arena.spellingBound ≤ fuel) :
      arena.nativeWithin fuel id = some name := by
    rw [← spellingWithin_type]
    exact spellingWithin_mono h_fuel h_name
  refine ⟨name, h_name, h_spelled, fun _ h_fuel => h.classFullDisplayWithin_stable h_fuel,
    fun _ h_fuel => h.elementNameWithin_stable h_fuel, ?_, fun owner h_id => ?_,
    fun element rank h_id => ?_⟩
  · obtain ⟨identifier, stars, h_form⟩ := isStarred_of_spelled h_name
    refine ⟨⟨identifier, stars⟩, h_form, fun form h_other => ?_⟩
    obtain ⟨h_identifier, h_stars⟩ := h_other.unique h_form
    exact Prod.ext h_identifier h_stars
  · obtain ⟨c, h_c⟩ := h.exists_class h_id
    refine ⟨c, h_c, fun h_enum => ?_⟩
    -- one more reference leads to the class
    have h_native : arena.nativeWithin (arena.spellingBound + 1) id =
        some (arena.structureName owner c) := by
      rw [nativeWithin, h_id]
      dsimp only
      rw [spellingBound, classNativeWithin, h_c]
      dsimp only
      rw [h_enum]
      rfl
    rw [h_spelled _ (Nat.le_succ _)] at h_native
    have h_form := arena.isStarred_structureName owner c
    rwa [← Option.some.inj h_native, structureIdentifier, String.toList_append] at h_form
  · have h_native : arena.nativeWithin arena.spellingBound id =
        some (pointerTo (arena.arrayIdentifier element)) := by
      rw [spellingBound, nativeWithin, h_id]
      rfl
    rw [h_spelled _ (Nat.le_refl _)] at h_native
    have h_form := arena.isStarred_array element
    rwa [← Option.some.inj h_native, arrayIdentifier, String.toList_append] at h_form

end Arena

namespace CellState

/-- **Native names are well formed.** In every state that a caller can see, and in every state in
the midst of what callers and runs do, if no enumeration leads back to itself through its underlying
type, the native name of every type is found and is one identifier with stars behind it, whatever
names the metadata has. For a class that is no enumeration the identifier ends in `_o`, with one
star unless it is a value type; for an array it ends in `_array`, with one star. -/
theorem native_well_formed (m : Metadata) (config : Config) :
    (∀ resolver, Resolver.Reachable m config resolver →
      (∀ id, ¬ TransGen resolver.arena.StoredLike id id) →
        ∀ id, ∃ name, resolver.arena.native id = some name ∧ resolver.arena.WellNamed id name) ∧
    ∀ state, Leads m config empty state →
      (∀ id, ¬ TransGen state.resolver.arena.StoredLike id id) →
        ∀ id, ∃ name, state.resolver.arena.native id = some name ∧
          state.resolver.arena.WellNamed id name := by
  have h_states : ∀ state, Leads m config empty state →
      (∀ id, ¬ TransGen state.resolver.arena.StoredLike id id) →
        ∀ id, ∃ name, state.resolver.arena.native id = some name ∧
          state.resolver.arena.WellNamed id name := by
    intro state h_leads h_none id
    have h_sound := (kept_empty.leads h_leads).sound
    refine h_sound.wellNamed fun h_circular => ?_
    obtain ⟨owner, -, h_circle⟩ := h_sound.circular_iff.mp h_circular
    exact h_none owner h_circle
  refine ⟨fun resolver h_reachable => ?_, h_states⟩
  obtain ⟨cells, h_leads⟩ := leads_of_reachable h_reachable
  exact h_states _ h_leads

end CellState

/-- The class of the second definition of `boxedInside`, its type and the arrays of that, asked for
one after the other. -/
def Resolver.ofBoxedInside : Resolver :=
  ((Resolver.empty.serve .boxedInside .minimal (.class (.ofDefinition 1))).serve
    .boxedInside .minimal (.intern (.class ⟨1⟩))).serve
    .boxedInside .minimal (.intern (.array ⟨1⟩ 1))

namespace CellState

/-- The class and the arrays of it have identifiers made of `é.2b`, `7up` and an empty name. -/
theorem native_well_formed_boxed :
    let arena := Resolver.ofBoxedInside.arena
    Resolver.Reachable .boxedInside .minimal .ofBoxedInside ∧
      (∀ id, ¬ TransGen arena.StoredLike id id) ∧
      (arena.native ⟨1⟩ = some "__2b_7up____2b__o*" ∧ arena.WellNamed ⟨1⟩ "__2b_7up____2b__o*") ∧
      arena.native ⟨2⟩ = some "__2b_7up____2b__array*" ∧
        arena.WellNamed ⟨2⟩ "__2b_7up____2b__array*" := by
  intro arena
  have h_reachable : Resolver.Reachable .boxedInside .minimal .ofBoxedInside := by
    have h_class : Request.Known Resolver.empty.arena (.class (.ofDefinition 1)) :=
      ⟨fun _ h => absurd h List.not_mem_nil, fun _ h => absurd h List.not_mem_nil⟩
    refine .serve _ (.serve _ (.serve _ .empty h_class) ?_) ?_
    · unfold Request.Known Arena.HasParts Arena.HasClass
      decide +kernel
    · unfold Request.Known Arena.HasParts Arena.HasType
      decide +kernel
  -- there are two classes, and neither is an enumeration
  have h_none (id : ClassId) : ¬ TransGen arena.StoredLike id id := by
    intro h_circle
    obtain ⟨owner, h_like, -⟩ := TransGen.head'_iff.mp h_circle
    obtain ⟨c, _, h_c, h_enum, -⟩ := h_like
    have h_lt : id.index < 2 := by
      have h_size : arena.classes.size = 2 := by decide +kernel
      rw [← h_size]
      exact Arena.hasClass_iff.mpr ⟨c, h_c⟩
    have h_plain : ∀ i < 2, (arena.class? ⟨i⟩).any (·.isEnum) = false := by decide +kernel
    have h_id := h_plain id.index h_lt
    rw [h_c] at h_id
    exact absurd h_enum (ne_true_of_eq_false h_id)
  have h_class : arena.native ⟨1⟩ = some "__2b_7up____2b__o*" := by decide +kernel
  have h_array : arena.native ⟨2⟩ = some "__2b_7up____2b__array*" := by decide +kernel
  have h_named := (native_well_formed .boxedInside .minimal).1 _ h_reachable h_none
  obtain ⟨_, h_name, h_class_named⟩ := h_named ⟨1⟩
  cases h_class.symm.trans h_name
  obtain ⟨_, h_name, h_array_named⟩ := h_named ⟨2⟩
  cases h_array.symm.trans h_name
  exact ⟨h_reachable, h_none, ⟨h_class, h_class_named⟩, h_array, h_array_named⟩

end CellState

end GlobalMetadata
