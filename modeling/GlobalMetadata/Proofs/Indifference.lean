import GlobalMetadata.Graph
import GlobalMetadata.Proofs.Follow
import GlobalMetadata.Proofs.Footprint

/-!
# Starts of empty ranges are not looked at

Two sets of metadata that are alike differ in where empty ranges start. `Metadata.LooksLike` adds
that what the links of the registration tables lead to is alike as well. Then every step of
resolution is the same for both, as a function of the arena, and so are runs and graphs
(`TypeGraph.build_congr`).

It is part of `Metadata.LooksLike` that no list of generic parameters without any starts behind the
end of their table (`Metadata.Overshoots`). This is the only start of an empty range that is looked
at.
-/

namespace GlobalMetadata

/-! ### Reading -/

/-- Entries at the same place of tables that are related are related. -/
theorem rel_getElem? {α β : Type} {R : α → β → Prop} {as : Array α} {bs : Array β}
    (h : List.Forall₂ R as.toList bs.toList) (i : Nat) : Option.Rel R as[i]? bs[i]? := by
  rw [← Array.getElem?_toList, ← Array.getElem?_toList]
  generalize as.toList = as, bs.toList = bs at h
  induction h generalizing i with
  | nil => exact .none
  | cons h_first _ ih =>
    cases i with
    | zero => exact .some h_first
    | succ i => exact ih i

theorem forall₂_extract {α β : Type} {R : α → β → Prop} {as : Array α} {bs : Array β}
    (h : List.Forall₂ R as.toList bs.toList) (first last : Nat) :
    List.Forall₂ R (as.extract first last).toList (bs.extract first last).toList := by
  rw [Array.toList_extract, Array.toList_extract, List.extract_eq_take_drop,
    List.extract_eq_take_drop]
  exact List.forall₂_take _ (List.forall₂_drop _ h)

namespace Metadata

/-- The members of one owner. Where a run without members starts makes no difference. -/
theorem both_memberRows {α : Type} {R : α → α → Prop} {table : MemberTable}
    {entries entries' : Array α} (h : List.Forall₂ R entries.toList entries'.toList)
    {start start' : Int} {count : Nat} (h_start : count = 0 ∨ start' = start) :
    Both (List.Forall₂ R) (memberRows table entries start count)
      (memberRows table entries' start' count) := by
  have h_size : entries'.size = entries.size := h.length_eq.symm
  have h_run : members table start' count entries'.size =
      members table start count entries.size := by
    rw [h_size]
    rcases h_start with rfl | rfl
    · rfl
    · rfl
  exact .bind_eq h_run fun run _ => .pure (forall₂_extract h run.1 run.2)

theorem memberRows_eq {α : Type} {table : MemberTable} {entries : Array α} {start start' : Int}
    {count : Nat} (h_start : count = 0 ∨ start' = start) :
    memberRows table entries start' count = memberRows table entries start count :=
  ((both_memberRows (List.forall₂_same.mpr fun _ _ => rfl) h_start).imp
    fun _ _ h_same => List.forall₂_eq_eq_eq ▸ h_same).eq

/-- The generic parameters of a definition are none at all, and yet they start behind the end of
their table. -/
def Overshoots (m : Metadata) (row : TypeDefinition) : Prop :=
  ∃ index container start, row.genericContainerIndex = some index ∧
    m.genericContainers[index]? = some container ∧ container.parameterCount = 0 ∧
    container.parameterStart = some start ∧ m.genericParameters.size < start

/-- A definition without generic parameters has none, as long as they do not start behind the end of
their table. -/
theorem parametersOf_of_empty {m : Metadata} {row : TypeDefinition} (h : ¬ m.Overshoots row)
    {index : Nat} {container : GenericContainer} (h_index : row.genericContainerIndex = some index)
    (h_container : m.genericContainers[index]? = some container)
    (h_empty : container.parameterCount = 0) : m.parametersOf row = .ok [] := by
  have h_none (start : Nat) : (m.genericParameters.extract start (start + 0)).toList = [] := by
    rw [Array.toList_extract, List.extract_eq_take_drop, Nat.add_zero, Nat.sub_self, List.take_zero]
  unfold parametersOf
  rw [h_index]
  dsimp only
  rw [h_container]
  dsimp only
  rw [h_empty]
  cases h_start : container.parameterStart with
  | none =>
    dsimp only
    rw [if_pos rfl, pure_bind, runOf?, if_pos (Nat.zero_le _)]
    exact congrArg Except.ok (h_none 0)
  | some start =>
    have h_le : start + 0 ≤ m.genericParameters.size := by
      refine Nat.not_lt.mp fun h_lt => h ?_
      exact ⟨index, container, start, h_index, h_container, h_empty, h_start, h_lt⟩
    dsimp only
    rw [pure_bind, runOf?, if_pos h_le]
    exact congrArg Except.ok (h_none start)

/-- **To resolution, two sets of metadata look the same**: they are alike, and so is whatever the
links of the registration tables lead to. -/
structure LooksLike (m m' : Metadata) (pair : VersionPair) : Prop where
  alike : m.Alike m'
  layouts : m.registration.layouts.IsFor pair m.registration.image.pointerWidth
  width : m'.registration.image.pointerWidth = m.registration.image.pointerWidth
  lookups : ∀ link, m.Links link → ∀ lookup, link.lookup? = some lookup →
    lookup.Alike pair m.registration.image m'.registration.image
  inside : ∀ row ∈ m.typeDefinitions, ¬ m.Overshoots row
  inside' : ∀ row ∈ m'.typeDefinitions, ¬ m'.Overshoots row

section Tables

variable {m m' : Metadata} {pair : VersionPair} (h : m.LooksLike m' pair)

include h

theorem LooksLike.string_eq : m'.string = m.string := by
  unfold string
  rw [h.alike.others]

theorem LooksLike.types_eq : m'.registration.types = m.registration.types := by
  rw [h.alike.registration.others]

theorem LooksLike.descriptor_eq : m'.descriptor = m.descriptor := by
  unfold descriptor
  rw [h.types_eq]

theorem LooksLike.genericParameters_eq : m'.genericParameters = m.genericParameters := by
  rw [h.alike.others]

theorem LooksLike.genericParameter_eq : m'.genericParameter = m.genericParameter := by
  unfold genericParameter
  rw [h.genericParameters_eq]

theorem LooksLike.size_typeDefinitions : m'.typeDefinitions.size = m.typeDefinitions.size :=
  h.alike.typeDefinitions.length_eq.symm

theorem LooksLike.images_eq : m'.images = m.images := by
  rw [h.alike.others]

theorem LooksLike.imageName_eq : m'.imageName = m.imageName := by
  unfold imageName
  rw [h.alike.others]

theorem LooksLike.definitionsOf_eq : m'.definitionsOf = m.definitionsOf := by
  unfold definitionsOf
  rw [h.size_typeDefinitions]

theorem LooksLike.imageOf_eq : m'.imageOf = m.imageOf := by
  have h_among (definition count : Nat) :
      m'.imageAmong definition count = m.imageAmong definition count := by
    induction count with
    | zero => rfl
    | succ count ih => rw [imageAmong, imageAmong, h.images_eq, ih]
  funext definition
  rw [imageOf, imageOf, h.images_eq, h_among]

theorem LooksLike.both_typeDefinition (index : Nat) :
    Both TypeDefinition.Alike (m.typeDefinition index) (m'.typeDefinition index) := by
  have h_rel := rel_getElem? h.alike.typeDefinitions index
  unfold typeDefinition
  rw [h.size_typeDefinitions]
  generalize m.typeDefinitions[index]? = x, m'.typeDefinitions[index]? = y at h_rel
  cases h_rel with
  | none => exact .error _
  | some h => exact .ok h

/-- The generic parameters of a definition. -/
theorem LooksLike.parametersOf_eq {row row' : TypeDefinition} (h_row : row ∈ m.typeDefinitions)
    (h_row' : row' ∈ m'.typeDefinitions) (h_alike : row.Alike row') :
    m'.parametersOf row' = m.parametersOf row := by
  have h_index : row'.genericContainerIndex = row.genericContainerIndex := by
    rw [h_alike.others]
  have h_size : m'.genericContainers.size = m.genericContainers.size :=
    h.alike.genericContainers.length_eq.symm
  cases h_stored : row.genericContainerIndex with
  | none =>
    unfold parametersOf
    rw [h_index, h_stored]
  | some index =>
    have h_stored' := h_index.trans h_stored
    have h_rel := rel_getElem? h.alike.genericContainers index
    generalize h_found : m.genericContainers[index]? = found at h_rel
    generalize h_found' : m'.genericContainers[index]? = found' at h_rel
    cases h_rel with
    | none =>
      unfold parametersOf
      rw [h_stored, h_stored', h_size]
      dsimp only
      rw [h_found, h_found']
    | @some container container' h_containers =>
      have h_count : container'.parameterCount = container.parameterCount := by
        rw [h_containers.others]
      by_cases h_empty : container.parameterCount = 0
      · rw [parametersOf_of_empty (h.inside row h_row) h_stored h_found h_empty,
          parametersOf_of_empty (h.inside' row' h_row') h_stored' h_found' (h_count.trans h_empty)]
      · have h_start := h_containers.parameters.resolve_left h_empty
        unfold parametersOf
        rw [h_stored, h_stored', h.genericParameters_eq]
        dsimp only
        rw [h_found, h_found']
        dsimp only
        rw [h_count, h_start]

end Tables

/-! ### Following links -/

section Links

variable {m m' : Metadata} {pair : VersionPair} (h : m.LooksLike m' pair) {address : Nat}

include h

theorem LooksLike.layouts_eq : m'.registration.layouts = m.registration.layouts := by
  rw [h.alike.registration.others]

theorem LooksLike.typeAt_eq (h_linked : m.Links (.descriptorAt address)) :
    m'.registration.typeAt address = m.registration.typeAt address := by
  have h_addresses : m'.registration.typeAddresses = m.registration.typeAddresses := by
    rw [h.alike.registration.others]
  unfold Registration.typeAt Registration.typeIndexOf Registration.readDescriptor
  rw [h_addresses, h.types_eq, h.layouts_eq,
    (h.lookups _ h_linked _ rfl).record_eq h.layouts.descriptor h.width rfl]

theorem LooksLike.genericClassAt_eq (h_linked : m.Links (.genericAt address)) :
    m'.registration.genericClassAt address = m.registration.genericClassAt address := by
  unfold Registration.genericClassAt
  rw [h.layouts_eq, (h.lookups _ h_linked _ rfl).record_eq h.layouts.genericClass h.width rfl]

theorem LooksLike.arrayTypeAt_eq (h_linked : m.Links (.shapeAt address)) :
    m'.registration.arrayTypeAt address = m.registration.arrayTypeAt address := by
  unfold Registration.arrayTypeAt
  rw [h.layouts_eq, (h.lookups _ h_linked _ rfl).record_eq h.layouts.arrayType h.width rfl]

theorem LooksLike.both_genericInstAt (h_linked : m.Links (.listAt address)) :
    Both GenericInst.Alike (m.registration.genericInstAt address)
      (m'.registration.genericInstAt address) := by
  unfold Registration.genericInstAt Registration.readInst
  rw [h.layouts_eq]
  exact (h.lookups _ h_linked _ rfl).both_record h.layouts.genericInst h.width
    fun _ _ _ => both_genericInst

/-- The arguments in a list; an empty list is not looked up. -/
theorem LooksLike.arguments_eq {inst inst' : GenericInst} (h_linked : m.Links (.list inst))
    (h_alike : inst.Alike inst') :
    inst'.arguments m'.registration.image = inst.arguments m.registration.image := by
  unfold GenericInst.arguments
  rw [h_alike.count]
  by_cases h_empty : inst.count = 0
  · rw [h_empty]
    rfl
  · rw [h_alike.address.resolve_left h_empty]
    exact h.lookups _ h_linked (.pointers inst.address inst.count) (if_neg h_empty)

theorem LooksLike.instantiatedDefinition_eq {g : GenericClass} (h_linked : m.Links (.generic g)) :
    m'.instantiatedDefinition g = m.instantiatedDefinition g := by
  unfold instantiatedDefinition
  split
  next => rfl
  next address h_stored => rw [h.typeAt_eq (.definition h_linked h_stored)]

theorem LooksLike.declaringDefinition_eq {d : Descriptor} (h_linked : m.Links (.descriptor d)) :
    m'.declaringDefinition d = m.declaringDefinition d := by
  unfold declaringDefinition
  split
  next => rfl
  next address h_stored =>
    have h_generic : m.Links (.genericAt address) := .instantiation h_linked h_stored
    rw [h.genericClassAt_eq h_generic]
    exact (Both.bind_eq rfl fun g h_g =>
      .of_eq (h.instantiatedDefinition_eq (.generic h_generic h_g))).eq
  next => rfl

end Links

end Metadata

/-! ### Steps -/

namespace Resolving

section Rules

variable {α β : Type}

/-- Steps that are the same, followed by steps that are the same. -/
theorem step_congr {x x' : Resolving α} {f f' : α → Resolving β} (h : x' = x)
    (h_next : ∀ a, f' a = f a) : (x' >>= f') = (x >>= f) := by
  rw [h, funext h_next]

/-- What is read is related, and makes no difference for what follows. -/
theorem read_congr {γ : Type} {R : α → γ → Prop} {e : Except Error α} {e' : Except Error γ}
    (h : Both R e e') {f : α → Resolving β} {f' : γ → Resolving β}
    (h_next : ∀ a a', e = .ok a → e' = .ok a' → R a a' → f' a' = f a) :
    ((liftM e' : Resolving γ) >>= f') = ((liftM e : Resolving α) >>= f) := by
  cases h with
  | error e => rfl
  | ok h => exact h_next _ _ rfl rfl h

/-- What is read is the same. -/
theorem read_eq_congr {e e' : Except Error α} (h : e' = e) {f f' : α → Resolving β}
    (h_next : ∀ a, e = .ok a → f' a = f a) :
    ((liftM e' : Resolving α) >>= f') = ((liftM e : Resolving α) >>= f) :=
  read_congr (.of_eq h) fun a _ h_a _ h_same => h_same ▸ h_next a h_a

theorem mapM_congr {R : α → α → Prop} {f f' : α → Resolving β} {as as' : List α}
    (h : List.Forall₂ R as as') (h_each : ∀ a ∈ as, ∀ a', R a a' → f' a' = f a) :
    as'.mapM f' = as.mapM f := by
  induction h with
  | nil => rfl
  | @cons a a' as as' h_first _ ih =>
    rw [List.mapM_cons, List.mapM_cons, h_each a List.mem_cons_self a' h_first,
      ih fun a h_a => h_each a (List.mem_cons_of_mem _ h_a)]

theorem mapM_eq_congr {f f' : α → Resolving β} {as : List α} (h : ∀ a ∈ as, f' a = f a) :
    as.mapM f' = as.mapM f :=
  mapM_congr (List.forall₂_same.mpr fun _ _ => rfl) fun a h_a _ h_same => h_same ▸ h a h_a

end Rules

section Creation

variable {m m' : Metadata} {pair : VersionPair} (h : m.LooksLike m' pair)

include h

theorem openParameter_congr : openParameter m' = openParameter m := by
  funext row ofMethod
  unfold openParameter
  rw [h.string_eq]

theorem declaringClass_congr {resolve resolve' : Nat → Resolving ClassId}
    (h_resolve : resolve' = resolve) {row row' : TypeDefinition} (h_row : row.Alike row') :
    declaringClass m' resolve' row' = declaringClass m resolve row := by
  have h_index : row'.declaringTypeIndex = row.declaringTypeIndex := by rw [h_row.others]
  unfold declaringClass
  rw [h_index, h_resolve, h.descriptor_eq]
  split
  · rfl
  · exact read_eq_congr rfl fun d h_d =>
      read_eq_congr (h.declaringDefinition_eq (.type (mem_of_descriptor h_d))) fun _ _ => rfl

theorem create_congr {definition : Nat} {row row' : TypeDefinition}
    (h_row : row ∈ m.typeDefinitions) (h_row' : row' ∈ m'.typeDefinitions)
    (h_alike : row.Alike row') (declaring : Option ClassId) :
    create m' definition row' declaring = create m definition row declaring := by
  have h_parameters := h.parametersOf_eq h_row h_row' h_alike
  have h_namespace (outer : Option String) :
      m'.namespaceOf row' outer = m.namespaceOf row outer := by
    unfold Metadata.namespaceOf
    rw [h.string_eq, h_alike.others]
  unfold create
  rw [h.string_eq, h_parameters, h.imageOf_eq, openParameter_congr h]
  simp only [h_namespace]
  rw [h_alike.others]
  rfl

/-- Definitions, by induction on the number of types around one that are followed. -/
theorem definitionWithin_congr (links : Nat) :
    definitionWithin m' links = definitionWithin m links := by
  induction links with
  | zero => rfl
  | succ links ih =>
    funext index
    unfold definitionWithin
    refine step_congr rfl fun arena => ?_
    split
    · rfl
    · refine read_congr (h.both_typeDefinition index) fun row row' h_row h_row' h_alike => ?_
      have h_mem := mem_of_typeDefinition h_row
      have h_mem' := mem_of_typeDefinition h_row'
      rw [declaringClass_congr h ih h_alike]
      exact step_congr rfl fun declaring => create_congr h h_mem h_mem' h_alike declaring

theorem definition_congr : definition m' = definition m :=
  definitionWithin_congr h _

theorem classOf_congr : classOf m' = classOf m := by
  funext key
  unfold classOf
  rw [definition_congr h]

end Creation

/-! ### Following references -/

section Reference

variable {m m' : Metadata} {pair : VersionPair} (h : m.LooksLike m' pair)

include h

theorem parameter_congr : parameter m' = parameter m := by
  funext scope index ofMethod
  unfold parameter
  rw [h.genericParameter_eq, openParameter_congr h]

theorem instantiate_congr : instantiate m' = instantiate m := by
  funext maxDepth key
  unfold instantiate
  rw [definition_congr h, classOf_congr h]

section Resolve

variable {resolve resolve' : Nat → Resolving TypeId}
  (h_resolve : ∀ address, m.Links (.descriptorAt address) → resolve' address = resolve address)

include h_resolve

theorem arguments_congr {address : Nat} (h_linked : address ≠ 0 → m.Links (.listAt address)) :
    arguments m' resolve' address = arguments m resolve address := by
  unfold arguments
  split
  · rfl
  next h_some =>
    refine read_congr (h.both_genericInstAt (h_linked h_some)) fun inst inst' h_inst _ h_alike => ?_
    have h_list : m.Links (.list inst) := .list (h_linked h_some) h_inst
    refine read_eq_congr (h.arguments_eq h_list h_alike) fun addresses h_addresses => ?_
    exact mapM_eq_congr fun address h_listed =>
      h_resolve address (.argument h_list h_addresses h_listed)

theorem instantiation_congr {maxDepth address : Nat} (h_linked : m.Links (.genericAt address)) :
    instantiation m' maxDepth resolve' address = instantiation m maxDepth resolve address := by
  refine read_eq_congr (h.genericClassAt_eq h_linked) fun g h_g => ?_
  have h_generic : m.Links (.generic g) := .generic h_linked h_g
  refine read_eq_congr (h.instantiatedDefinition_eq h_generic) fun index _ => ?_
  refine step_congr (arguments_congr h h_resolve (.classArguments h_generic)) fun classArgs => ?_
  refine step_congr (arguments_congr h h_resolve (.methodArguments h_generic)) fun methodArgs => ?_
  rw [instantiate_congr h]

theorem payload_congr {maxDepth : Nat} {scope : GenericScope} {d : Descriptor}
    (h_linked : m.Links (.descriptor d)) :
    payload m' maxDepth scope resolve' d = payload m maxDepth scope resolve d := by
  unfold payload
  split
  · rfl
  · split
    next => rfl
    next => rw [definition_congr h]
    next address h_stored =>
      exact step_congr (h_resolve address (.element h_linked h_stored)) fun _ => rfl
    next address h_stored =>
      have h_shape : m.Links (.shapeAt address) := .array h_linked h_stored
      exact read_eq_congr (h.arrayTypeAt_eq h_shape) fun shape h_read =>
        step_congr (h_resolve _ (.shape h_shape h_read)) fun _ => rfl
    next => rw [parameter_congr h]
    next address h_stored =>
      exact instantiation_congr h h_resolve (.instantiation h_linked h_stored)

end Resolve

theorem atAddress_congr {resolve resolve' : Descriptor → Resolving TypeId}
    (h_resolve : ∀ d, m.Links (.descriptor d) → resolve' d = resolve d) {address : Nat}
    (h_linked : m.Links (.descriptorAt address)) :
    atAddress m' resolve' address = atAddress m resolve address :=
  read_eq_congr (h.typeAt_eq h_linked) fun d h_d => h_resolve d (.descriptor h_linked h_d)

/-- Descriptors, by induction on how many of them are followed into each other. -/
theorem descriptorWithin_congr {maxDepth : Nat} {scope : GenericScope} (levels : Nat)
    {d : Descriptor} (h_linked : m.Links (.descriptor d)) :
    descriptorWithin m' maxDepth scope levels d = descriptorWithin m maxDepth scope levels d := by
  induction levels generalizing d with
  | zero => rfl
  | succ levels ih =>
    have h_resolve (address : Nat) (h_address : m.Links (.descriptorAt address)) :
        atAddress m' (descriptorWithin m' maxDepth scope levels) address =
          atAddress m (descriptorWithin m maxDepth scope levels) address :=
      atAddress_congr h (fun _ => ih) h_address
    exact step_congr (payload_congr h h_resolve h_linked) fun _ => rfl

theorem typeIndex_congr : typeIndex m' = typeIndex m := by
  funext maxDepth scope index
  unfold typeIndex
  rw [h.descriptor_eq]
  exact read_eq_congr rfl fun d h_d =>
    descriptorWithin_congr h _ (.type (mem_of_descriptor h_d))

theorem listed_congr {maxDepth address : Nat} (h_listed : address ∈ m.registration.genericClasses) :
    listed m' maxDepth address = listed m maxDepth address :=
  instantiation_congr h
    (fun _ h_address => atAddress_congr h (fun _ => descriptorWithin_congr h _) h_address)
    (.instantiated h_listed)

end Reference

/-! ### Completing classes -/

section Completion

variable {m m' : Metadata} {pair : VersionPair} (h : m.LooksLike m' pair) {maxDepth : Nat}
  {scope : GenericScope} {owner : ClassId} {c : ResolvedClass}

include h

theorem field_congr : field m' maxDepth scope owner = field m maxDepth scope owner := by
  funext row
  unfold field
  rw [h.string_eq, h.descriptor_eq]
  refine step_congr rfl fun name => ?_
  split
  · exact read_eq_congr rfl fun d h_d =>
      step_congr (descriptorWithin_congr h _ (.type (mem_of_descriptor h_d))) fun _ => rfl
  · rfl

theorem fields_congr {row row' : TypeDefinition} (h_row : row.Alike row') :
    fields m' maxDepth scope owner row' = fields m maxDepth scope owner row := by
  have h_fields : m'.fields = m.fields := by rw [h.alike.others]
  have h_count : row'.fieldCount = row.fieldCount := by rw [h_row.others]
  unfold fields
  rw [h_fields, h_count, field_congr h, Metadata.memberRows_eq h_row.fields]

theorem methodParameter_congr :
    methodParameter m' maxDepth scope = methodParameter m maxDepth scope := by
  funext row
  unfold methodParameter
  rw [h.string_eq, typeIndex_congr h]

theorem parameters_congr {row row' : MethodDefinition} (h_row : row.Alike row') :
    parameters m' maxDepth scope row' = parameters m maxDepth scope row := by
  have h_parameters : m'.parameters = m.parameters := by rw [h.alike.others]
  have h_count : row'.parameterCount = row.parameterCount := by rw [h_row.others]
  unfold parameters
  rw [h_parameters, h_count, methodParameter_congr h, Metadata.memberRows_eq h_row.parameters]

theorem returnType_congr : returnType m' maxDepth scope = returnType m maxDepth scope := by
  funext index
  cases index with
  | none => rfl
  | some index => exact congrFun (congrFun (congrFun (typeIndex_congr h) _) _) _

theorem methodAddress_congr (isInstantiation : Bool) (image : Option Nat)
    {row row' : MethodDefinition} (h_row : row.Alike row') :
    methodAddress m' isInstantiation image row' = methodAddress m isInstantiation image row := by
  have h_address (name : String) : m'.registration.methodAddress name row' =
      m.registration.methodAddress name row := by
    unfold Registration.methodAddress Registration.module?
    rw [h.alike.registration.others, h_row.others]
  unfold methodAddress
  rw [h.imageName_eq]
  simp only [h_address]

theorem method_congr {row row' : MethodDefinition} (h_row : row.Alike row') :
    method m' maxDepth scope owner c row' = method m maxDepth scope owner c row := by
  unfold method
  rw [h.string_eq, returnType_congr h, parameters_congr h h_row, methodAddress_congr h _ _ h_row,
    h_row.others]
  rfl

theorem methods_congr {row row' : TypeDefinition} (h_row : row.Alike row') :
    methods m' maxDepth scope owner c row' = methods m maxDepth scope owner c row := by
  have h_count : row'.methodCount = row.methodCount := by rw [h_row.others]
  unfold methods
  rw [h_count]
  refine read_congr (Metadata.both_memberRows h.alike.methods h_row.methods)
    fun rows rows' _ _ h_rows => ?_
  exact step_congr (mapM_congr h_rows fun _ _ _ h_method => method_congr h h_method) fun _ => rfl

theorem nestedClass_congr : nestedClass m' owner = nestedClass m owner := by
  funext index entry
  unfold nestedClass
  rw [definition_congr h]

theorem nested_congr {row row' : TypeDefinition} (h_row : row.Alike row') :
    nested m' owner c row' = nested m owner c row := by
  have h_nested : m'.nestedTypes = m.nestedTypes := by rw [h.alike.others]
  have h_count : row'.nestedTypeCount = row.nestedTypeCount := by rw [h_row.others]
  unfold nested
  rw [h_nested, h_count, nestedClass_congr h, Metadata.memberRows_eq h_row.nested]

theorem underlying_congr {row row' : TypeDefinition} (h_row : row.Alike row') :
    underlying m' maxDepth scope c row' = underlying m maxDepth scope c row := by
  unfold underlying
  rw [typeIndex_congr h, h_row.others]

theorem members_congr : members m' maxDepth owner c = members m maxDepth owner c := by
  refine read_congr (h.both_typeDefinition c.definition) fun row row' _ _ h_row => ?_
  refine step_congr (underlying_congr h h_row) fun _ => ?_
  refine step_congr (fields_congr h h_row) fun _ => ?_
  refine step_congr (methods_congr h h_row) fun _ => ?_
  exact step_congr (nested_congr h h_row) fun _ => rfl

theorem complete_congr : complete m' maxDepth = complete m maxDepth := by
  funext id
  refine step_congr rfl fun arena => ?_
  split
  · rfl
  · rw [members_congr h]

end Completion

end Resolving

/-! ### Runs -/

namespace Resolver

variable {m m' : Metadata} {pair : VersionPair} (h : m.LooksLike m' pair)

include h

theorem seedDefinitions_congr : seedDefinitions m' = seedDefinitions m := by
  funext resolver
  have h_seed : seed m' = seed m := by
    funext resolver definition
    unfold seed
    rw [Resolving.definition_congr h]
  unfold seedDefinitions
  rw [h.size_typeDefinitions, h_seed]

theorem seedListings_congr (config : Config) : seedListings m' config = seedListings m config := by
  funext resolver
  have h_classes : m'.registration.genericClasses = m.registration.genericClasses := by
    rw [h.alike.registration.others]
  unfold seedListings
  rw [h_classes]
  split
  · refine List.foldl_ext _ _ _ fun resolver entry h_entry => ?_
    have h_listed : entry.1 ∈ m.registration.genericClasses :=
      Array.mem_toList_iff.mp (List.fst_mem_of_mem_zipIdx h_entry)
    rw [seedListed, seedListed, Resolving.listed_congr h h_listed]
  · rfl

theorem completeRange_congr (maxDepth : Nat) :
    completeRange m' maxDepth = completeRange m maxDepth := by
  funext first last resolver
  have h_class : completeClass m' maxDepth = completeClass m maxDepth := by
    funext resolver index
    unfold completeClass
    rw [Resolving.complete_congr h]
  unfold completeRange
  rw [h_class]

omit h in
/-- All rounds, by the induction that they themselves give. -/
theorem completeFrom?_of_completeRange_eq {maxDepth : Nat}
    (h_range : completeRange m' maxDepth = completeRange m maxDepth) {done : Nat}
    {resolver final : Resolver} (h_final : completeFrom? m maxDepth done resolver = some final) :
    completeFrom? m' maxDepth done resolver = some final := by
  refine completeFrom?.partial_correctness m maxDepth (fun done resolver final =>
    completeFrom? m' maxDepth done resolver = some final) ?_ done resolver final h_final
  intro next ih done resolver final h_next
  dsimp only at h_next
  rw [completeFrom?]
  split at h_next
  next h_done =>
    cases h_next
    exact if_pos h_done
  next h_done =>
    rw [if_neg h_done, h_range]
    exact ih _ _ _ h_next

theorem completeFrom?_congr (maxDepth : Nat) :
    completeFrom? m' maxDepth = completeFrom? m maxDepth := by
  have h_range := completeRange_congr h maxDepth
  funext done resolver
  refine Option.ext fun final => ⟨fun h_final => ?_, fun h_final => ?_⟩
  · exact completeFrom?_of_completeRange_eq h_range.symm h_final
  · exact completeFrom?_of_completeRange_eq h_range h_final

theorem run_congr (config : Config) : run m' config = run m config := by
  funext resolver
  unfold run start
  rw [completeFrom?_congr h, seedListings_congr h, seedDefinitions_congr h]

theorem toGraph_congr : toGraph m' = toGraph m := by
  funext resolver
  unfold toGraph imageEntry
  rw [h.images_eq, h.imageName_eq, h.definitionsOf_eq]

end Resolver

/-- **Graphs** of metadata that looks the same are the same. -/
theorem TypeGraph.build_congr {m m' : Metadata} {pair : VersionPair} (h : m.LooksLike m' pair)
    (config : Config) : build m' config = build m config := by
  unfold build
  rw [Resolver.run_congr h, Resolver.toGraph_congr h]

end GlobalMetadata
