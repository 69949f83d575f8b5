import GlobalMetadata.Proofs.Outcome

/-!
# Where members are

A type definition names its members by runs in the tables of fields, methods and nested types.
`Metadata.withRanges` replaces these runs for one definition and changes nothing else.

Nothing but the members of that definition depends on the runs. Chains stay as they are but for the
row that was changed (`Metadata.lineage_withRanges`), and what a chain shows does not look at the
runs of a row. So types are displayed the same, descriptors stand for the same, and the members of
every other definition, and of all of its instantiations, mean the same
(`Metadata.membersMeaning_withRanges`).
-/

namespace GlobalMetadata

/-- Where the members of a type definition are in their tables. -/
structure MemberRanges where
  fieldStart : Int
  fieldCount : Nat
  methodStart : Int
  methodCount : Nat
  nestedTypesStart : Int
  nestedTypeCount : Nat
  deriving DecidableEq, Repr

/-- The row with its members somewhere else. -/
def TypeDefinition.withRanges (row : TypeDefinition) (ranges : MemberRanges) : TypeDefinition :=
  { row with
    fieldStart := ranges.fieldStart
    fieldCount := ranges.fieldCount
    methodStart := ranges.methodStart
    methodCount := ranges.methodCount
    nestedTypesStart := ranges.nestedTypesStart
    nestedTypeCount := ranges.nestedTypeCount }

/-- The metadata in which the members of one definition are somewhere else. -/
def Metadata.withRanges (m : Metadata) (d : Nat) (ranges : MemberRanges) : Metadata :=
  { m with typeDefinitions := m.typeDefinitions.modify d (·.withRanges ranges) }

section Rows

variable (d : Nat) (ranges : MemberRanges)

/-- What becomes of the row of a definition. -/
def TypeDefinition.withRangesAt (definition : Nat) (row : TypeDefinition) : TypeDefinition :=
  if definition = d then row.withRanges ranges else row

/-- What becomes of a type in a chain. -/
def Frame.withRanges (frame : Frame) : Frame :=
  { frame with row := frame.row.withRangesAt d ranges frame.definition }

/-- What becomes of a chain. -/
def Lineage.withRanges : Lineage → Lineage
  | .top namespaceName frame => .top namespaceName (frame.withRanges d ranges)
  | .nested frame outer => .nested (frame.withRanges d ranges) (withRanges outer)

/-! ### What does not look at the runs -/

variable {d ranges}

theorem TypeDefinition.withRangesAt_of_ne {definition : Nat} (h : definition ≠ d)
    (row : TypeDefinition) : row.withRangesAt d ranges definition = row :=
  if_neg h

/-- What does not look at the runs sees no difference. -/
theorem TypeDefinition.eq_withRangesAt {α : Type} (shown : TypeDefinition → α)
    (h : ∀ row : TypeDefinition, shown (row.withRanges ranges) = shown row) (definition : Nat)
    (row : TypeDefinition) : shown (row.withRangesAt d ranges definition) = shown row := by
  by_cases h_here : definition = d
  · rw [withRangesAt, if_pos h_here, h]
  · rw [withRangesAt_of_ne h_here]

namespace Lineage

variable (lineage : Lineage)

@[simp] theorem frame_withRanges :
    (lineage.withRanges d ranges).frame = lineage.frame.withRanges d ranges := by
  cases lineage <;> rfl

@[simp] theorem outer?_withRanges :
    (lineage.withRanges d ranges).outer? = lineage.outer?.map (withRanges d ranges) := by
  cases lineage <;> rfl

@[simp] theorem namespaceName_withRanges :
    (lineage.withRanges d ranges).namespaceName = lineage.namespaceName := by
  induction lineage with
  | top => rfl
  | nested _ _ ih => exact ih

@[simp] theorem qualifiedName_withRanges :
    (lineage.withRanges d ranges).qualifiedName = lineage.qualifiedName := by
  induction lineage with
  | top => rfl
  | nested frame outer ih =>
    rw [withRanges, qualifiedName, qualifiedName, ih, namespaceName_withRanges]
    rfl

@[simp] theorem definitions_withRanges :
    (lineage.withRanges d ranges).definitions = lineage.definitions := by
  induction lineage with
  | top => rfl
  | nested frame outer ih =>
    rw [withRanges, definitions, definitions, ih]
    rfl

@[simp] theorem length_withRanges : (lineage.withRanges d ranges).length = lineage.length := by
  rw [length, definitions_withRanges, length]

@[simp] theorem display_withRanges (args : List String) :
    (lineage.withRanges d ranges).display args = lineage.display args := by
  induction lineage generalizing args with
  | top => rfl
  | nested frame outer ih =>
    rw [withRanges, display, display, ih, frame_withRanges]
    rfl

theorem make_withRanges (namespaceName : String) (frame : Frame) (outer : Option Lineage) :
    make namespaceName (frame.withRanges d ranges) (outer.map (withRanges d ranges)) =
      (make namespaceName frame outer).withRanges d ranges := by
  cases outer <;> rfl

end Lineage

end Rows

/-! ### Chains -/

namespace Metadata

variable {m : Metadata} {d : Nat} {ranges : MemberRanges}

theorem size_withRanges : (m.withRanges d ranges).typeDefinitions.size = m.typeDefinitions.size :=
  Array.size_modify

theorem typeDefinition_withRanges (definition : Nat) :
    (m.withRanges d ranges).typeDefinition definition =
      (·.withRangesAt d ranges definition) <$> m.typeDefinition definition := by
  -- at every position there is what became of the row there
  have h_at : (m.withRanges d ranges).typeDefinitions[definition]? =
      m.typeDefinitions[definition]?.map (·.withRangesAt d ranges definition) := by
    show (m.typeDefinitions.modify d _)[definition]? = _
    rw [Array.getElem?_modify]
    by_cases h_same : d = definition
    · subst h_same
      simp [TypeDefinition.withRangesAt]
    · have h_ne : definition ≠ d := fun h => h_same h.symm
      simp [TypeDefinition.withRangesAt_of_ne h_ne, h_same]
  unfold typeDefinition
  rw [h_at, size_withRanges]
  cases m.typeDefinitions[definition]? <;> rfl

theorem lineageOf_withRanges (definition : Nat) (row : TypeDefinition) (outer : Option Lineage) :
    (m.withRanges d ranges).lineageOf definition (row.withRangesAt d ranges definition)
        (outer.map (·.withRanges d ranges)) =
      (·.withRanges d ranges) <$> m.lineageOf definition row outer := by
  -- a chain reads the name, the namespace and the parameters of a row, and nothing else
  have h_namespace : (m.withRanges d ranges).namespaceOf (row.withRangesAt d ranges definition)
      ((outer.map (·.withRanges d ranges)).map (·.namespaceName)) =
        m.namespaceOf row (outer.map (·.namespaceName)) := by
    cases outer with
    | none =>
      show m.string _ = m.string _
      rw [TypeDefinition.eq_withRangesAt (·.namespaceIndex) fun _ => rfl]
    | some outer => exact congrArg Except.ok outer.namespaceName_withRanges
  have h_parameters : (m.withRanges d ranges).parametersOf (row.withRangesAt d ranges definition) =
      m.parametersOf row := by
    unfold parametersOf
    rw [TypeDefinition.eq_withRangesAt (·.genericContainerIndex) fun _ => rfl]
    rfl
  unfold lineageOf
  rw [h_namespace, h_parameters, TypeDefinition.eq_withRangesAt (·.nameIndex) fun _ => rfl]
  simp only [map_bind, map_pure, ← Lineage.make_withRanges]
  rfl

theorem outerLineage_withRanges {resolve resolve' : Nat → Except Error Lineage}
    (h_resolve : ∀ i, resolve' i = (·.withRanges d ranges) <$> resolve i) (definition : Nat)
    (row : TypeDefinition) :
    (m.withRanges d ranges).outerLineage resolve' (row.withRangesAt d ranges definition) =
      Option.map (·.withRanges d ranges) <$> m.outerLineage resolve row := by
  unfold outerLineage
  rw [TypeDefinition.eq_withRangesAt (·.declaringTypeIndex) fun _ => rfl]
  cases row.declaringTypeIndex with
  | none => rfl
  | some index =>
    -- the descriptor names the same definition, and its chain is what became of the old one
    dsimp only
    simp only [map_bind, h_resolve]
    refine bind_congr fun descriptor => bind_congr fun outer => ?_
    cases resolve outer <;> rfl

/-- **Chains** stay as they are but for the row that was changed. -/
theorem lineage_withRanges (definition : Nat) :
    (m.withRanges d ranges).lineage definition =
      (·.withRanges d ranges) <$> m.lineage definition := by
  -- by induction on the bound, row by row outwards; there are as many rows as before
  have h_within (links definition : Nat) : (m.withRanges d ranges).lineageWithin links definition =
      (·.withRanges d ranges) <$> m.lineageWithin links definition := by
    induction links generalizing definition with
    | zero => rfl
    | succ links ih =>
      rw [lineageWithin, lineageWithin, typeDefinition_withRanges, bind_map_left, map_bind]
      refine bind_congr fun row => ?_
      rw [outerLineage_withRanges ih, bind_map_left, map_bind]
      exact bind_congr fun outer => lineageOf_withRanges definition row outer
  rw [lineage, size_withRanges, h_within, lineage]

theorem traces_withRanges_iff {definition : Nat} {lineage' : Lineage} :
    (m.withRanges d ranges).Traces definition lineage' ↔
      ∃ lineage, m.Traces definition lineage ∧ lineage.withRanges d ranges = lineage' := by
  simp only [← lineage_eq_ok_iff, lineage_withRanges]
  cases m.lineage definition with
  | ok lineage =>
    show Except.ok _ = Except.ok _ ↔ _
    simp
  | error e =>
    show Except.error e = Except.ok _ ↔ _
    simp

theorem Traces.withRanges {definition : Nat} {lineage : Lineage} (h : m.Traces definition lineage) :
    (m.withRanges d ranges).Traces definition (lineage.withRanges d ranges) :=
  traces_withRanges_iff.mpr ⟨lineage, h, rfl⟩

theorem imageOf_withRanges (definition : Nat) :
    (m.withRanges d ranges).imageOf definition = m.imageOf definition := by
  have h_among (count : Nat) :
      (m.withRanges d ranges).imageAmong definition count = m.imageAmong definition count := by
    induction count with
    | zero => rfl
    | succ image ih =>
      -- the rows of images are the same
      rw [imageAmong, imageAmong, ih]
      rfl
  exact h_among m.images.size

theorem display_withRanges (t : TypeTerm) : (m.withRanges d ranges).display t = m.display t := by
  induction t with
  | void | primitive | parameter => simp only [display]
  | array element rank ih | pointer element ih | byref element ih => rw [display, display, ih]
  | «class» definition classArgs methodArgs ih =>
    rw [display, display, lineage_withRanges, displays_eq_map, displays_eq_map,
      List.map_congr_left ih]
    -- the arguments are written the same by induction, and so is the chain
    cases m.lineage definition with
    | error e => rfl
    | ok lineage =>
      show (lineage.withRanges d ranges).display _ = _
      rw [Lineage.display_withRanges, Lineage.frame_withRanges]
      rfl

end Metadata

/-! ### Meanings -/

namespace Meaning

variable {m : Metadata} {d : Nat} {ranges : MemberRanges} (maxDepth : Nat) (scope : TermScope)

theorem definition_withRanges (index : Nat) :
    definition (m.withRanges d ranges) index =
      (·.withRanges d ranges) <$> definition m index := by
  rw [definition, Metadata.lineage_withRanges, read_map, definition]

/-- What does not look at the runs of a chain means the same. -/
theorem definition_bind_withRanges {β : Type} (index : Nat) (f : Lineage → Meaning β)
    (h_f : ∀ lineage, f (lineage.withRanges d ranges) = f lineage) :
    definition (m.withRanges d ranges) index >>= f = definition m index >>= f := by
  rw [definition_withRanges, bind_map_left]
  exact bind_congr h_f

theorem definitionType_withRanges (index : Nat) :
    definitionType (m.withRanges d ranges) index = definitionType m index :=
  definition_bind_withRanges index _ fun _ => rfl

theorem classOf_withRanges (k : KeyTerm) : classOf (m.withRanges d ranges) k = classOf m k :=
  definition_bind_withRanges k.definition _ fun _ => rfl

theorem instantiate_withRanges (k : KeyTerm) :
    instantiate (m.withRanges d ranges) maxDepth k = instantiate m maxDepth k := by
  unfold instantiate
  rw [classOf_withRanges]
  -- of the chain only the open parameters matter
  refine definition_bind_withRanges k.definition _ fun lineage => ?_
  rw [Lineage.frame_withRanges]
  rfl

theorem instantiation_withRanges (resolve : Nat → Meaning TypeTerm) (address : Nat) :
    instantiation (m.withRanges d ranges) maxDepth resolve address =
      instantiation m maxDepth resolve address := by
  unfold instantiation
  simp only [instantiate_withRanges]
  rfl

theorem payload_withRanges (resolve : Nat → Meaning TypeTerm) (descriptor : Descriptor) :
    payload (m.withRanges d ranges) maxDepth scope resolve descriptor =
      payload m maxDepth scope resolve descriptor := by
  unfold payload
  simp only [definitionType_withRanges, instantiation_withRanges]
  rfl

theorem atAddress_withRanges {resolve resolve' : Descriptor → Meaning TypeTerm}
    (h_resolve : ∀ descriptor, resolve' descriptor = resolve descriptor) :
    atAddress (m.withRanges d ranges) resolve' = atAddress m resolve := by
  funext address
  unfold atAddress
  simp only [h_resolve]
  rfl

theorem descriptorWithin_withRanges (levels : Nat) (descriptor : Descriptor) :
    descriptorWithin (m.withRanges d ranges) maxDepth scope levels descriptor =
      descriptorWithin m maxDepth scope levels descriptor := by
  induction levels generalizing descriptor with
  | zero => rfl
  | succ levels ih =>
    rw [descriptorWithin, descriptorWithin, atAddress_withRanges ih, payload_withRanges]

theorem typeIndex_withRanges (index : Nat) :
    typeIndex (m.withRanges d ranges) maxDepth scope index = typeIndex m maxDepth scope index := by
  unfold typeIndex descriptor
  simp only [descriptorWithin_withRanges]
  rfl

/-! #### Members -/

section Members

variable (owner : KeyTerm)

theorem field_withRanges (row : FieldDefinition) :
    field (m.withRanges d ranges) maxDepth scope owner row = field m maxDepth scope owner row := by
  unfold field descriptor
  simp only [descriptorWithin_withRanges]
  rfl

theorem parameters_withRanges (row : MethodDefinition) :
    parameters (m.withRanges d ranges) maxDepth scope row = parameters m maxDepth scope row := by
  unfold parameters methodParameter
  simp only [typeIndex_withRanges]
  rfl

theorem returnType_withRanges (index : Option Nat) :
    returnType (m.withRanges d ranges) maxDepth scope index =
      returnType m maxDepth scope index := by
  cases index with
  | none => rfl
  | some index => exact typeIndex_withRanges maxDepth scope index

theorem signature_withRanges (isStatic : Bool) (returnType : TypeTerm) (name : String)
    (parameters : List ParameterTerm) :
    signature (m.withRanges d ranges) isStatic returnType name parameters =
      signature m isStatic returnType name parameters := by
  unfold signature
  simp only [Metadata.display_withRanges]

theorem method_withRanges (row : MethodDefinition) :
    method (m.withRanges d ranges) maxDepth scope owner row =
      method m maxDepth scope owner row := by
  unfold method
  simp only [returnType_withRanges, parameters_withRanges, signature_withRanges,
    Metadata.imageOf_withRanges]
  rfl

theorem nestedClass_withRanges (entry : Int) :
    nestedClass (m.withRanges d ranges) owner entry = nestedClass m owner entry := by
  unfold nestedClass
  cases toIndex? entry with
  | none => rfl
  | some position =>
    -- of the chain only the definition around matters
    refine definition_bind_withRanges position _ fun lineage => ?_
    rw [Lineage.outer?_withRanges]
    cases lineage.outer? with
    | none => rfl
    | some outer =>
      rw [Option.map_some, Option.map_some, Lineage.frame_withRanges]
      rfl

/-- **The members of other definitions** mean the same, also with arguments put in. -/
theorem members_withRanges {owner : KeyTerm} (h_other : owner.definition ≠ d) :
    members (m.withRanges d ranges) maxDepth owner = members m maxDepth owner := by
  -- the runs of this row were not replaced, and what they lead to is the same
  have h_row : (m.withRanges d ranges).typeDefinition owner.definition =
      m.typeDefinition owner.definition := by
    rw [Metadata.typeDefinition_withRanges]
    simp only [TypeDefinition.withRangesAt_of_ne h_other, id_map']
  have h_field : field (m.withRanges d ranges) maxDepth (.ofKey owner) owner =
      field m maxDepth (.ofKey owner) owner :=
    funext fun row => field_withRanges maxDepth (.ofKey owner) owner row
  have h_method : method (m.withRanges d ranges) maxDepth (.ofKey owner) owner =
      method m maxDepth (.ofKey owner) owner :=
    funext fun row => method_withRanges maxDepth (.ofKey owner) owner row
  have h_nested : nestedClass (m.withRanges d ranges) owner = nestedClass m owner :=
    funext fun entry => nestedClass_withRanges owner entry
  unfold members underlying fields methods nested
  rw [h_row]
  simp only [typeIndex_withRanges, h_field, h_method, h_nested]
  rfl

end Members

end Meaning

namespace Metadata

variable {m : Metadata} {d : Nat} {ranges : MemberRanges} (config : Config)

/-- **Listed instantiations** are the same, and mean the same. -/
theorem listedMeaning_withRanges (entry : Nat × Nat) :
    (m.withRanges d ranges).listedMeaning config entry = m.listedMeaning config entry := by
  have h_within (descriptor : Descriptor) :
      Meaning.descriptorWithin (m.withRanges d ranges) config.maxGenericDepth .empty nestingLimit
          descriptor =
        Meaning.descriptorWithin m config.maxGenericDepth .empty nestingLimit descriptor :=
    Meaning.descriptorWithin_withRanges config.maxGenericDepth .empty nestingLimit descriptor
  unfold listedMeaning Meaning.listed
  rw [Meaning.atAddress_withRanges h_within, Meaning.instantiation_withRanges]

theorem membersMeaning_withRanges {k : KeyTerm} (h_other : k.definition ≠ d) :
    (m.withRanges d ranges).membersMeaning config k = m.membersMeaning config k :=
  Meaning.members_withRanges config.maxGenericDepth h_other

theorem classTerm_withRanges {k : KeyTerm} (h_other : k.definition ≠ d) (lineage : Lineage) :
    (m.withRanges d ranges).classTerm config k (lineage.withRanges d ranges) =
      m.classTerm config k lineage := by
  have h_outer : ((lineage.withRanges d ranges).outer?.map fun outer =>
      KeyTerm.ofDefinition outer.frame.definition) =
        lineage.outer?.map fun outer => .ofDefinition outer.frame.definition := by
    rw [Lineage.outer?_withRanges, Option.map_map]
    refine Option.map_congr fun outer _ => ?_
    rw [Function.comp_apply, Lineage.frame_withRanges]
    rfl
  have h_row {α : Type} (shown : TypeDefinition → α)
      (h : ∀ row : TypeDefinition, shown (row.withRanges ranges) = shown row) :
      shown (lineage.frame.withRanges d ranges).row = shown lineage.frame.row :=
    TypeDefinition.eq_withRangesAt shown h lineage.frame.definition lineage.frame.row
  -- the rest is read off the chain and off rows without a look at their runs
  unfold classTerm
  rw [h_outer, imageOf_withRanges, membersMeaning_withRanges config h_other,
    Lineage.frame_withRanges, Lineage.namespaceName_withRanges, Lineage.qualifiedName_withRanges,
    h_row (·.attributes) fun _ => rfl, h_row (·.isValueType) fun _ => rfl,
    h_row (·.isEnum) fun _ => rfl, h_row (·.token) fun _ => rfl]
  rfl

end Metadata

end GlobalMetadata
